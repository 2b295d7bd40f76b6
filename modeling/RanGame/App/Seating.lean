import RanGame.App.Lobby
import RanGame.Room.Members

/-!
# Tables, rooms and sessions

The matcher settles a table (`settle` in `internal/match/match.go`) by creating a room and having
the players join it one after the other. Rooms take their messages one by one
(`internal/room/room.go`). When a session is released, `onSessionRelease` (`internal/app/server.go`)
cancels the player's request and sends a leave message to the room whose name the session carries.

Rooms are numbered in the order of their creation. A room ends when it has called `ctx.Stop()`, or
when the engine stops it after three panics: `crash`.
-/

namespace RanGame.App

open Function List Match Room

inductive Letter
  /-- `joinMsg`, from the settlement of table `i` for session `x` -/
  | join (i x : ℕ)
  /-- `leaveMsg` -/
  | leave (uid : String)
  deriving DecidableEq

structure RoomProc where
  state : State
  sess : String → ℕ
  mailbox : List Letter
  alive : Bool
  table : ℕ

/-- How far the release of a session has come. -/
inductive Stage
  | online
  /-- It has been taken out of the index, by a login or after the grace period. -/
  | unlinked
  /-- `markReleased` -/
  | marked
  /-- `OnRelease` has been called with this `RoomID`. -/
  | called (room : Option ℕ)
  | released
  deriving DecidableEq

/-- The release has not read the `RoomID` yet. -/
def Stage.early : Stage → Bool
  | .online | .unlinked | .marked => true
  | _ => false

structure Sess where
  uid : String
  stage : Stage

inductive Settling
  | idle
  | creating (table : List (Entry UInt32))
  | joining (room : ℕ) (done : List (Entry UInt32)) (e : Entry UInt32) (todo : List (Entry UInt32))
  | found (room : ℕ) (done : List (Entry UInt32)) (e : Entry UInt32) (todo : List (Entry UInt32))
    (x : ℕ)
  /-- `Join` waits for the reply. -/
  | told (room : ℕ) (done : List (Entry UInt32)) (e : Entry UInt32) (todo : List (Entry UInt32))
    (x : ℕ)
  /-- A join has failed, and leave messages are to be sent. -/
  | leaving (room : ℕ) (table todo : List (Entry UInt32))
  | seated (room : ℕ) (table : List (Entry UInt32))
  /-- All have been told that a join has failed. -/
  | failed (room : ℕ) (table : List (Entry UInt32))
  /-- All have been told that there is no room. -/
  | refused (table : List (Entry UInt32))

namespace Settling

def fail (room : ℕ) (done : List (Entry UInt32)) (e : Entry UInt32) (todo : List (Entry UInt32)) :
    Settling :=
  .leaving room (done ++ e :: todo) ((done ++ e :: todo).takeWhile fun f => f.uid ≠ e.uid)

def next (room : ℕ) (done : List (Entry UInt32)) : List (Entry UInt32) → Settling
  | [] => .seated room done
  | e :: todo => .joining room done e todo

/-- The player whom `Join` is called for and the session that it has found. -/
def found? : Settling → Option (String × ℕ)
  | .found _ _ e _ x | .told _ _ e _ x => some (e.uid, x)
  | _ => none

/-- `settle` has returned, or has not been called. -/
def returned : Settling → Bool
  | .idle | .seated _ _ | .failed _ _ | .refused _ => true
  | _ => false

end Settling

structure World where
  maker : Maker UInt32
  tables : ℕ
  settling : ℕ → Settling
  nrooms : ℕ
  rooms : ℕ → RoomProc
  nsess : ℕ
  sess : ℕ → Sess
  /-- `Session.RoomID` -/
  roomID : ℕ → Option ℕ
  byUID : PartialMap String ℕ

def newWorld : World where
  maker := newMaker
  tables := 0
  settling := fun _ => .idle
  nrooms := 0
  rooms := fun _ => ⟨(createRoom 0 0 0).room, fun _ => 0, [], false, 0⟩
  nsess := 0
  sess := fun _ => ⟨"", .released⟩
  roomID := fun _ => none
  byUID := fun _ => none

/-- What can happen. `ok` says whether a message is accepted. -/
inductive WorldAct
  /-- `Enqueue`, up to the point where a table is settled -/
  | enqueue (uid : String) (rule : Rule) (seq : UInt32)
  | createRoom (i : ℕ) (ok : Bool)
  | find (i : ℕ)
  | tell (i : ℕ) (ok : Bool)
  /-- `settle` sends the next leave message, or tells of the failure. -/
  | rollback (i : ℕ) (ok : Bool)
  | handle (r : ℕ) (cb cb' : Script)
  /-- A timer or a message of the game runs a callback. -/
  | callback (r : ℕ) (cb : Script)
  | finish (r : ℕ)
  | crash (r : ℕ)
  | login (uid : String)
  | expire (x : ℕ)
  | mark (x : ℕ)
  | onRelease (x : ℕ)
  | leave (x : ℕ) (ok : Bool)

def WorldAct.room? : WorldAct → Option ℕ
  | .handle r _ _ | .callback r _ => some r
  | _ => none

namespace World

variable (s : World)

/-- The world as the goroutine of a room sees it. -/
def view (r : ℕ) : View := ⟨(s.rooms r).state, (s.rooms r).sess, s.roomID⟩

/-- What the goroutine of a room leaves behind, and what is still in its mailbox. -/
@[simps] def write (r : ℕ) (v : View) (mailbox : List Letter) : World :=
  { s with
    rooms := update s.rooms r { s.rooms r with state := v.room, sess := v.sess, mailbox := mailbox }
    roomID := v.roomID }

@[simps] def post (r : ℕ) (l : Letter) : World :=
  { s with
    rooms := update s.rooms r { s.rooms r with mailbox := (s.rooms r).mailbox ++ [l] } }

@[simps] def settle (i : ℕ) (t : Settling) : World :=
  { s with settling := update s.settling i t }

@[simps] def setStage (x : ℕ) (t : Stage) : World :=
  { s with sess := update s.sess x ⟨(s.sess x).uid, t⟩ }

@[simps] def endRoom (r : ℕ) : World :=
  { s with rooms := update s.rooms r { s.rooms r with mailbox := [], alive := false } }

@[simps] def addRoom (i : ℕ) (maxPlayers : ℤ) : World :=
  { s with
    nrooms := s.nrooms + 1
    rooms := update s.rooms s.nrooms
      ⟨(Room.createRoom 0 0 maxPlayers).room, fun _ => 0, [], true, i⟩ }

@[simps] def addSess (uid : String) : World :=
  { s with
    nsess := s.nsess + 1
    sess := update s.sess s.nsess ⟨uid, .online⟩
    byUID := s.byUID.insert uid s.nsess }

/-- The reply that the settlement of a table waits for. -/
def reply (i : ℕ) (answer : Option (Option JoinErr)) : World :=
  match s.settling i, answer with
  | .told r done e todo _, some none => s.settle i (.next r (done ++ [e]) todo)
  | .told r done e todo _, some (some _) => s.settle i (.fail r done e todo)
  | _, _ => s

def handleLetter (r : ℕ) (cb cb' : Script) (rest : List Letter) : Letter → World
  | .join i x =>
    (s.write r ((s.view r).handleJoin cb.act r x (s.sess x).uid).1.1 rest).reply i
      ((s.view r).handleJoin cb.act r x (s.sess x).uid).2
  | .leave uid => s.write r ((s.view r).handleLeave cb.act cb'.act uid).1 rest

/-- A leave message is sent to a room, if that is there and accepts it. -/
def sendLeave (r : ℕ) (uid : String) (ok : Bool) : World :=
  if (s.rooms r).alive && ok then s.post r (.leave uid) else s

def step (defs : Modules) (s : World) : WorldAct → Option World
  | .enqueue uid rule seq =>
    match s.maker.enqueue uid rule seq with
    | .error _ => some s
    | .ok (m, none) => some { s with maker := m }
    | .ok (m, some matched) =>
      some { s with
        maker := m
        tables := s.tables + 1
        settling := update s.settling s.tables (.creating matched) }
  | .createRoom i ok =>
    match s.settling i with
    | .creating (e :: todo) =>
      match defs e.rule.module with
      | some d =>
        if ok then some ((s.addRoom i d.maxPlayers).settle i (.joining s.nrooms [] e todo))
        else some (s.settle i (.refused (e :: todo)))
      | none => some (s.settle i (.refused (e :: todo)))
    | _ => none
  | .find i =>
    match s.settling i with
    | .joining r done e todo =>
      if (s.rooms r).alive then
        match s.byUID e.uid with
        | some x => some (s.settle i (.found r done e todo x))
        | none => some (s.settle i (.fail r done e todo))
      else some (s.settle i (.fail r done e todo))
    | _ => none
  | .tell i ok =>
    match s.settling i with
    | .found r done e todo x =>
      if (s.rooms r).alive && ok then some ((s.post r (.join i x)).settle i (.told r done e todo x))
      else some (s.settle i (.fail r done e todo))
    | _ => none
  | .rollback i ok =>
    match s.settling i with
    | .leaving r table (e :: todo) =>
      some ((s.sendLeave r e.uid ok).settle i (.leaving r table todo))
    | .leaving r table [] => some (s.settle i (.failed r table))
    | _ => none
  | .handle r cb cb' =>
    match (s.rooms r).mailbox with
    | [] => none
    | l :: rest => if (s.rooms r).alive then some (s.handleLetter r cb cb' rest l) else none
  | .callback r cb =>
    if (s.rooms r).alive then some (s.write r (cb.act (s.view r)).1 (s.rooms r).mailbox) else none
  | .finish r => if (s.rooms r).alive && (s.rooms r).state.stops then some (s.endRoom r) else none
  | .crash r => if (s.rooms r).alive then some (s.endRoom r) else none
  | .login uid =>
    match s.byUID uid with
    | some x => some ((s.setStage x .unlinked).addSess uid)
    | none => some (s.addSess uid)
  | .expire x =>
    if (s.sess x).stage = .online then
      some { s.setStage x .unlinked with byUID := s.byUID.erase (s.sess x).uid }
    else none
  | .mark x => if (s.sess x).stage = .unlinked then some (s.setStage x .marked) else none
  | .onRelease x =>
    if (s.sess x).stage = .marked then
      some { s.setStage x (.called (s.roomID x)) with maker := (s.maker.cancel (s.sess x).uid).1 }
    else none
  | .leave x ok =>
    match (s.sess x).stage with
    | .called (some r) => some ((s.sendLeave r (s.sess x).uid ok).setStage x .released)
    | .called none => some (s.setStage x .released)
    | _ => none

variable {defs : Modules} {s s' : World}

inductive Happens (defs : Modules) (s : World) : WorldAct → World → Prop
  | rejected {uid rule seq} : Happens defs s (.enqueue uid rule seq) s
  | waits {uid rule seq m} (henq : s.maker.enqueue uid rule seq = .ok (m, none)) :
      Happens defs s (.enqueue uid rule seq) { s with maker := m }
  | formed {uid rule seq m matched} (henq : s.maker.enqueue uid rule seq = .ok (m, some matched)) :
      Happens defs s (.enqueue uid rule seq)
        { s with
          maker := m, tables := s.tables + 1
          settling := update s.settling s.tables (.creating matched) }
  | refused {i ok e todo} (hi : s.settling i = .creating (e :: todo)) :
      Happens defs s (.createRoom i ok) (s.settle i (.refused (e :: todo)))
  | created {i e todo d} (hi : s.settling i = .creating (e :: todo))
      (hd : defs e.rule.module = some d) : Happens defs s (.createRoom i true)
        ((s.addRoom i d.maxPlayers).settle i (.joining s.nrooms [] e todo))
  | found {i r done e todo x} (hi : s.settling i = .joining r done e todo)
      (hx : s.byUID e.uid = some x) : Happens defs s (.find i) (s.settle i (.found r done e todo x))
  | notFound {i r done e todo} (hi : s.settling i = .joining r done e todo)
      (hno : (s.rooms r).alive = true → s.byUID e.uid = none) :
      Happens defs s (.find i) (s.settle i (.fail r done e todo))
  | told {i r done e todo x} (hi : s.settling i = .found r done e todo x)
      (halive : (s.rooms r).alive = true) :
      Happens defs s (.tell i true) ((s.post r (.join i x)).settle i (.told r done e todo x))
  | notTold {i ok r done e todo x} (hi : s.settling i = .found r done e todo x)
      (hno : (s.rooms r).alive = true → ok = false) :
      Happens defs s (.tell i ok) (s.settle i (.fail r done e todo))
  | rolledBack {i ok r table e todo} (hi : s.settling i = .leaving r table (e :: todo)) :
      Happens defs s (.rollback i ok) ((s.sendLeave r e.uid ok).settle i (.leaving r table todo))
  | failed {i ok r table} (hi : s.settling i = .leaving r table []) :
      Happens defs s (.rollback i ok) (s.settle i (.failed r table))
  | handled {r cb cb' l rest} (hmail : (s.rooms r).mailbox = l :: rest)
      (halive : (s.rooms r).alive = true) :
      Happens defs s (.handle r cb cb') (s.handleLetter r cb cb' rest l)
  | ran {r cb} (halive : (s.rooms r).alive = true) :
      Happens defs s (.callback r cb) (s.write r (cb.act (s.view r)).1 (s.rooms r).mailbox)
  | finished {r} (halive : (s.rooms r).alive = true) (hstops : (s.rooms r).state.stops = true) :
      Happens defs s (.finish r) (s.endRoom r)
  | crashed {r} (halive : (s.rooms r).alive = true) : Happens defs s (.crash r) (s.endRoom r)
  | loginAgain {uid x} (hx : s.byUID uid = some x) :
      Happens defs s (.login uid) ((s.setStage x .unlinked).addSess uid)
  | loginFirst {uid} (hx : s.byUID uid = none) : Happens defs s (.login uid) (s.addSess uid)
  | expired {x} (hx : (s.sess x).stage = .online) : Happens defs s (.expire x)
        { s.setStage x .unlinked with byUID := s.byUID.erase (s.sess x).uid }
  | marked {x} (hx : (s.sess x).stage = .unlinked) : Happens defs s (.mark x) (s.setStage x .marked)
  | called {x} (hx : (s.sess x).stage = .marked) : Happens defs s (.onRelease x)
        { s.setStage x (.called (s.roomID x)) with maker := (s.maker.cancel (s.sess x).uid).1 }
  | left {x ok r} (hx : (s.sess x).stage = .called (some r)) :
      Happens defs s (.leave x ok) ((s.sendLeave r (s.sess x).uid ok).setStage x .released)
  | leftNone {x ok} (hx : (s.sess x).stage = .called none) :
      Happens defs s (.leave x ok) (s.setStage x .released)

theorem happens_of_step {a : WorldAct} (h : s.step defs a = some s') : Happens defs s a s' := by
  cases a with
  | enqueue uid rule seq =>
    simp only [step] at h
    split at h <;> cases h
    · exact .rejected
    · exact .waits ‹_›
    · exact .formed ‹_›
  | createRoom i ok =>
    simp only [step] at h
    split at h
    next hi =>
      split at h
      next hd =>
        split at h <;> cases h
        next hok =>
          cases hok
          exact .created hi hd
        · exact .refused hi
      · cases h
        exact .refused hi
    · cases h
  | find i =>
    simp only [step] at h
    split at h
    next hi =>
      split at h
      · split at h <;> cases h
        · exact .found hi ‹_›
        · exact .notFound hi fun _ => ‹_›
      next hdead =>
        cases h
        exact .notFound hi fun halive => absurd halive hdead
    · cases h
  | tell i ok =>
    simp only [step] at h
    split at h
    next hi =>
      split at h <;> cases h
      next hok =>
        obtain ⟨halive, rfl⟩ := Bool.and_eq_true_iff.mp hok
        exact .told hi halive
      next hok =>
        refine .notTold hi fun halive => ?_
        simpa [halive] using hok
    · cases h
  | rollback i ok =>
    simp only [step] at h
    split at h <;> cases h
    · exact .rolledBack ‹_›
    · exact .failed ‹_›
  | handle r cb cb' =>
    simp only [step] at h
    split at h
    · cases h
    · split at h <;> cases h
      exact .handled ‹_› ‹_›
  | callback r cb =>
    simp only [step] at h
    split at h <;> cases h
    exact .ran ‹_›
  | finish r =>
    simp only [step] at h
    split at h <;> cases h
    rename_i hok
    obtain ⟨halive, hstops⟩ := Bool.and_eq_true_iff.mp hok
    exact .finished halive hstops
  | crash r =>
    simp only [step] at h
    split at h <;> cases h
    exact .crashed ‹_›
  | login uid =>
    simp only [step] at h
    split at h <;> cases h
    · exact .loginAgain ‹_›
    · exact .loginFirst ‹_›
  | expire x =>
    simp only [step] at h
    split at h <;> cases h
    exact .expired ‹_›
  | mark x =>
    simp only [step] at h
    split at h <;> cases h
    exact .marked ‹_›
  | onRelease x =>
    simp only [step] at h
    split at h <;> cases h
    exact .called ‹_›
  | leave x ok =>
    simp only [step] at h
    split at h <;> cases h
    · exact .left ‹_›
    · exact .leftNone ‹_›

/-! ### What the handling of a message is -/

@[simp] theorem write_write (s : World) (r : ℕ) (v w : View) (l l' : List Letter) :
    (s.write r v l).write r w l' = s.write r w l' := by
  simp [write]

@[simp] theorem view_write (s : World) (r : ℕ) (v : View) (l : List Letter) :
    (s.write r v l).view r = v := by
  rw [view, write_rooms, update_self]
  rfl

@[simp] theorem reply_none (s : World) (i : ℕ) : s.reply i none = s := by
  simp [reply]

variable {i r x : ℕ} {done todo : List (Entry UInt32)}

theorem reply_ok {e : Entry UInt32} (hi : s.settling i = .told r done e todo x) :
    s.reply i (some none) = s.settle i (.next r (done ++ [e]) todo) := by
  simp only [reply, hi]

theorem reply_err {e : Entry UInt32} (hi : s.settling i = .told r done e todo x) (err : JoinErr) :
    s.reply i (some (some err)) = s.settle i (.fail r done e todo) := by
  simp only [reply, hi]

theorem reply_eq_settle (s : World) (i : ℕ) (answer : Option (Option JoinErr)) :
    ∃ t, s.reply i answer = s.settle i t ∧ (t = s.settling i ∨
      ∃ r done e todo x, s.settling i = .told r done e todo x ∧
        (answer = some none ∧ t = .next r (done ++ [e]) todo ∨
          (∃ err, answer = some (some err)) ∧ t = .fail r done e todo)) := by
  simp only [reply]
  split
  · exact ⟨_, rfl, .inr ⟨_, _, _, _, _, ‹_›, .inl ⟨rfl, rfl⟩⟩⟩
  · exact ⟨_, rfl, .inr ⟨_, _, _, _, _, ‹_›, .inr ⟨⟨_, rfl⟩, rfl⟩⟩⟩
  · exact ⟨_, by simp [settle], .inl rfl⟩

/-- What the handling of a message by a room is. -/
inductive Handles (s : World) (r : ℕ) (rest : List Letter) : Letter → World → Prop
  /-- The room takes in nobody. -/
  | declined {i x answer} (hno : ¬ (s.view r).Admits (s.sess x).uid)
      (hanswer : (∃ err, answer = some (some err)) ∧
          ((s.rooms r).state.closing = true ∨ (s.sess x).uid ∉ (s.rooms r).state.members) ∨
        (s.sess x).uid ∈ (s.rooms r).state.members ∧ answer = some none) :
      Handles s r rest (.join i x) ((s.write r (s.view r) rest).reply i answer)
  /-- The room takes in a player, and the game goes on from there. -/
  | tookIn {i x answer w} (hyes : (s.view r).Admits (s.sess x).uid)
      (hw : ((s.view r).takeIn r x (s.sess x).uid).Thins w)
      (hanswer : answer = none ∨ answer = some none) : Handles s r rest (.join i x)
        (((s.write r ((s.view r).takeIn r x (s.sess x).uid) rest).write r w rest).reply i answer)
  | left {uid w} (hw : (s.view r).Thins w)
      (hgone : (s.rooms r).state.closing = false → uid ∉ w.room.members) :
      Handles s r rest (.leave uid) (s.write r w rest)

theorem handles_handleLetter (hn : (s.rooms r).state.members.Nodup) (cb cb' : Script)
    (rest : List Letter) (l : Letter) : Handles s r rest l (s.handleLetter r cb cb' rest l) := by
  cases l with
  | join i x =>
    rw [handleLetter]
    by_cases hyes : (s.view r).Admits (s.sess x).uid
    · rw [View.handleJoin_of_admits hyes, ← write_write s r ((s.view r).takeIn r x (s.sess x).uid)]
      refine .tookIn hyes (cb.act_thins (View.nodup_takeIn hyes hn)) ?_
      split
      · exact .inl rfl
      · exact .inr rfl
    · obtain ⟨hview, hanswer⟩ := View.handleJoin_of_not_admits (r := r) (x := x) hyes cb.act
      rw [hview]
      exact .declined hyes hanswer
  | leave uid =>
    have hthins : ∀ (cb : Script) (w : View), w.room.members.Nodup → w.Thins (cb.act w).1 :=
      fun cb _ hw => cb.act_thins hw
    exact .left (View.handleLeave_thins (hthins cb) (hthins cb') hn uid)
      fun hc => View.not_mem_handleLeave (hthins cb) (hthins cb') hn hc

/-! ### Replies and leave messages -/

theorem rooms_reply (s : World) (i : ℕ) (answer : Option (Option JoinErr)) :
    (s.reply i answer).rooms = s.rooms := by
  obtain ⟨t, ht, -⟩ := reply_eq_settle s i answer
  rw [ht]
  rfl

theorem roomID_reply (s : World) (i : ℕ) (answer : Option (Option JoinErr)) :
    (s.reply i answer).roomID = s.roomID := by
  obtain ⟨t, ht, -⟩ := reply_eq_settle s i answer
  rw [ht]
  rfl

theorem roomID_sendLeave (s : World) (r : ℕ) (uid : String) (ok : Bool) :
    (s.sendLeave r uid ok).roomID = s.roomID := by
  rw [sendLeave]
  split <;> rfl

theorem settling_sendLeave (s : World) (r : ℕ) (uid : String) (ok : Bool) :
    (s.sendLeave r uid ok).settling = s.settling := by
  rw [sendLeave]
  split <;> rfl

theorem state_sendLeave (s : World) (r q : ℕ) (uid : String) (ok : Bool) :
    ((s.sendLeave r uid ok).rooms q).state = (s.rooms q).state := by
  rw [sendLeave]
  split
  · rw [post_rooms]
    exact (apply_update (fun _ (p : RoomProc) => p.state) ..).trans (by simp)
  · rfl

theorem alive_sendLeave (s : World) (r q : ℕ) (uid : String) (ok : Bool) :
    ((s.sendLeave r uid ok).rooms q).alive = (s.rooms q).alive := by
  rw [sendLeave]
  split
  · rw [post_rooms]
    exact (apply_update (fun _ (p : RoomProc) => p.alive) ..).trans (by simp)
  · rfl

theorem leave_mem_sendLeave {uid : String} (halive : (s.rooms r).alive = true) :
    .leave uid ∈ ((s.sendLeave r uid true).rooms r).mailbox := by
  rw [sendLeave, halive, Bool.and_self, if_pos rfl, post_rooms, update_self]
  exact mem_append_right _ (mem_singleton.mpr rfl)

theorem leave_mem_of_join {mailbox rest : List Letter} {u : String}
    (hmail : mailbox = .join i x :: rest) (hu : .leave u ∈ mailbox) : .leave u ∈ rest := by
  rw [hmail] at hu
  exact (mem_cons.mp hu).resolve_left nofun

/-! ### Sessions and rooms -/

/-- A session with the name of a room is that of a member; and what sessions and rooms there are. -/
structure Carried (s : World) : Prop where
  nodup : ∀ r, (s.rooms r).state.members.Nodup
  stops : ∀ r, (s.rooms r).state.stops = true →
    (s.rooms r).state.closing = true ∧ (s.rooms r).state.members = []
  fresh : ∀ r, s.nrooms ≤ r → (s.rooms r).alive = false ∧ (s.rooms r).state.members = []
  index : ∀ u x, s.byUID u = some x → x < s.nsess ∧ (s.sess x).uid = u
  found : ∀ i u x, (s.settling i).found? = some (u, x) → x < s.nsess ∧ (s.sess x).uid = u
  letter : ∀ r i x, .join i x ∈ (s.rooms r).mailbox → x < s.nsess
  unborn : ∀ x, s.nsess ≤ x → s.roomID x = none
  back : ∀ x r, s.roomID x = some r →
    (s.sess x).uid ∈ (s.rooms r).state.members ∧ (s.rooms r).sess (s.sess x).uid = x

theorem carried_newWorld : Carried newWorld where
  nodup := fun _ => nodup_nil
  stops := nofun
  fresh := fun _ _ => ⟨rfl, rfl⟩
  index := nofun
  found := nofun
  letter := nofun
  unborn := fun _ _ => rfl
  back := nofun

namespace Carried

theorem congr (h : Carried s) (hrooms : s'.rooms = s.rooms) (hnrooms : s'.nrooms = s.nrooms)
    (hnsess : s'.nsess = s.nsess) (hroomID : s'.roomID = s.roomID)
    (huid : ∀ x, (s'.sess x).uid = (s.sess x).uid)
    (hindex : ∀ u x, s'.byUID u = some x → s.byUID u = some x)
    (hfound : ∀ i u x, (s'.settling i).found? = some (u, x) →
      x < s.nsess ∧ (s.sess x).uid = u) : Carried s' where
  nodup := by
    rw [hrooms]
    exact h.nodup
  stops := by
    rw [hrooms]
    exact h.stops
  fresh := by
    rw [hrooms, hnrooms]
    exact h.fresh
  index := by
    intro u x hx
    rw [hnsess, huid]
    exact h.index u x (hindex u x hx)
  found := by
    intro i u x hi
    rw [hnsess, huid]
    exact hfound i u x hi
  letter := by
    rw [hrooms, hnsess]
    exact h.letter
  unborn := by
    rw [hnsess, hroomID]
    exact h.unborn
  back := by
    intro x r hx
    rw [hroomID] at hx
    rw [hrooms, huid]
    exact h.back x r hx

variable {r : ℕ}

variable (h : Carried s)

include h

theorem leave_mem {uid u : String} {rest : List Letter} {w : View}
    (hmail : (s.rooms r).mailbox = .leave uid :: rest) (hw : (s.view r).Thins w)
    (hclosed : (s.rooms r).state.closing = true → (s.rooms r).state.stops = true)
    (hgone : (s.rooms r).state.closing = false → uid ∉ w.room.members) (hu : u ∈ w.room.members)
    (hmem : .leave u ∈ (s.rooms r).mailbox) : .leave u ∈ rest := by
  rw [hmail] at hmem
  refine (mem_cons.mp hmem).resolve_left ?_
  rintro ⟨⟩
  cases hc : (s.rooms r).state.closing with
  | false => exact hgone hc hu
  | true =>
    -- a room that is closing has nobody left to send away
    have hsub := hw.members
    rw [show (s.view r).room.members = [] from (h.stops r (hclosed hc)).2] at hsub
    rw [sublist_nil.mp hsub] at hu
    cases hu

theorem settle {i : ℕ} {t : Settling}
    (ht : ∀ u x, t.found? = some (u, x) → x < s.nsess ∧ (s.sess x).uid = u) :
    Carried (s.settle i t) := by
  refine h.congr rfl rfl rfl rfl (fun _ => rfl) (fun _ _ => id) ?_
  exact (forall_update_iff s.settling fun _ k => ∀ u x, k.found? = some (u, x) →
    x < s.nsess ∧ (s.sess x).uid = u).mpr ⟨ht, fun j _ => h.found j⟩

theorem setStage (x : ℕ) (t : Stage) : Carried (s.setStage x t) := by
  refine h.congr rfl rfl rfl rfl (fun y => ?_) (fun _ _ => id) h.found
  exact apply_update (fun _ (q : Sess) => q.uid) .. |>.trans (by simp)

theorem setRoom {n : ℕ} {p : RoomProc} {roomID : ℕ → Option ℕ} (hnodup : p.state.members.Nodup)
    (hstops : p.state.stops = true → p.state.closing = true ∧ p.state.members = [])
    (hn : s.nrooms ≤ n) (hr : r < n) (hletter : ∀ i x, .join i x ∈ p.mailbox → x < s.nsess)
    (hunborn : ∀ x, s.nsess ≤ x → roomID x = none)
    (hself : ∀ x, roomID x = some r → (s.sess x).uid ∈ p.state.members ∧ p.sess (s.sess x).uid = x)
    (hother : ∀ x q, q ≠ r → roomID x = some q → s.roomID x = some q) :
    Carried { s with nrooms := n, rooms := update s.rooms r p, roomID := roomID } where
  __ := h
  nodup := (forall_update_iff s.rooms fun _ p => p.state.members.Nodup).mpr
    ⟨hnodup, fun q _ => h.nodup q⟩
  stops := (forall_update_iff s.rooms fun _ p => p.state.stops = true →
    p.state.closing = true ∧ p.state.members = []).mpr ⟨hstops, fun q _ => h.stops q⟩
  fresh := (forall_update_iff s.rooms fun q p => n ≤ q → p.alive = false ∧ p.state.members = []).mpr
      ⟨fun hle => absurd hr (Nat.not_lt.mpr hle), fun q _ hle => h.fresh q (hn.trans hle)⟩
  letter := (forall_update_iff s.rooms fun _ p => ∀ i x, .join i x ∈ p.mailbox →
    x < s.nsess).mpr ⟨hletter, fun q _ => h.letter q⟩
  unborn := hunborn
  back := by
    refine fun x => (forall_update_iff s.rooms fun q p => roomID x = some q →
      (s.sess x).uid ∈ p.state.members ∧ p.sess (s.sess x).uid = x).mpr ⟨hself x, fun q hq hx => ?_⟩
    exact h.back x q (hother x q hq hx)

theorem lt_of_alive (halive : (s.rooms r).alive = true) : r < s.nrooms := by
  by_contra hle
  rw [(h.fresh r (Nat.not_lt.mp hle)).1] at halive
  cases halive

theorem post {l : Letter} (halive : (s.rooms r).alive = true)
    (hl : ∀ i x, l = .join i x → x < s.nsess) : Carried (s.post r l) := by
  refine h.setRoom (h.nodup r) (h.stops r) le_rfl (h.lt_of_alive halive) (fun i x hx => ?_) h.unborn
    (fun x hx => h.back x r hx) fun _ _ _ => id
  rcases mem_append.mp hx with hx | hx
  · exact h.letter r i x hx
  · exact hl i x (mem_singleton.mp hx).symm

theorem sendLeave (r : ℕ) (uid : String) (ok : Bool) : Carried (s.sendLeave r uid ok) := by
  rw [World.sendLeave]
  split
  next hok => exact h.post (Bool.and_eq_true_iff.mp hok).1 nofun
  · exact h

theorem endRoom (halive : (s.rooms r).alive = true) : Carried (s.endRoom r) :=
  h.setRoom (h.nodup r) (h.stops r) le_rfl (h.lt_of_alive halive) nofun h.unborn
    (fun x hx => h.back x r hx) fun _ _ _ => id

theorem addRoom (i : ℕ) (maxPlayers : ℤ) : Carried (s.addRoom i maxPlayers) := by
  refine h.setRoom nodup_nil nofun (Nat.le_succ _) (Nat.lt_succ_self _) nofun h.unborn
    (fun x hx => ?_) fun _ _ _ => id
  have hmem := (h.back x s.nrooms hx).1
  rw [(h.fresh s.nrooms le_rfl).2] at hmem
  cases hmem

theorem thin {w : View} {l : List Letter} (halive : (s.rooms r).alive = true)
    (hw : (s.view r).Thins w) (hl : l ⊆ (s.rooms r).mailbox) : Carried (s.write r w l) := by
  refine h.setRoom (hw.nodup (h.nodup r)) (fun hs => ?_) le_rfl (h.lt_of_alive halive)
    (fun i x hx => h.letter r i x (hl hx)) (fun x hx => ?_) (fun x hx => ?_) fun x q _ hx => ?_
  · rcases hw.stops hs with hs | hs
    · obtain ⟨hc, hm⟩ := h.stops r hs
      have hmembers := hw.members
      rw [show (s.view r).room.members = [] from hm] at hmembers
      exact ⟨hw.closing hc, sublist_nil.mp hmembers⟩
    · exact hs
  · rcases hw.roomID_eq x with hnone | hsame
    · exact hnone
    · exact hsame.trans (h.unborn x hx)
  · rcases hw.roomID_eq x with hnone | hsame
    · rw [hnone] at hx
      cases hx
    · obtain ⟨hmem, hsess⟩ := h.back x r (hsame.symm.trans hx)
      refine ⟨?_, (congrFun hw.sess _).trans hsess⟩
      by_contra hgone
      have hnone := hw.gone _ hmem hgone
      rw [show (s.view r).sess (s.sess x).uid = x from hsess, hx] at hnone
      cases hnone
  · rcases hw.roomID_eq x with hnone | hsame
    · rw [hnone] at hx
      cases hx
    · exact hsame.symm.trans hx

theorem takeIn {x : ℕ} {l : List Letter} (halive : (s.rooms r).alive = true)
    (hyes : (s.view r).Admits (s.sess x).uid) (hx : x < s.nsess) (hl : l ⊆ (s.rooms r).mailbox) :
    Carried (s.write r ((s.view r).takeIn r x (s.sess x).uid) l) := by
  refine h.setRoom (View.nodup_takeIn (r := r) (x := x) hyes (h.nodup r)) (fun hs => ?_) le_rfl
    (h.lt_of_alive halive) (fun i y hy => h.letter r i y (hl hy)) (fun y hy => ?_)
    (fun y hy => ?_) fun y q hq hy => ?_
  · -- a room that has stopped is closing and takes in nobody
    have hc := (h.stops r hs).1
    rw [show (s.rooms r).state.closing = false from hyes.1] at hc
    cases hc
  · exact (update_of_ne (by omega) _ _).trans (h.unborn y hy)
  · by_cases hyx : y = x
    · subst hyx
      exact ⟨mem_append_right _ (mem_singleton.mpr rfl), update_self ..⟩
    · obtain ⟨hmem, hsess⟩ := h.back y r ((update_of_ne hyx _ _).symm.trans hy)
      refine ⟨mem_append_left _ hmem, (update_of_ne ?_ _ _).trans hsess⟩
      intro heq
      exact hyes.2.1 (heq ▸ hmem)
  · have hyx : y ≠ x := by
      rintro rfl
      rw [show ((s.view r).takeIn r y (s.sess y).uid).roomID y = some r from
        update_self ..] at hy
      exact hq (Option.some.inj hy).symm
    exact (update_of_ne hyx _ _).symm.trans hy

theorem addSess (uid : String) : Carried (s.addSess uid) := by
  have hkeep : ∀ x, x < s.nsess → ((s.addSess uid).sess x).uid = (s.sess x).uid := fun x hx =>
    congrArg Sess.uid (update_of_ne (Nat.ne_of_lt hx) ..)
  refine ⟨h.nodup, h.stops, h.fresh, fun u x hx => ?_, fun i u x hi => ?_,
    fun r i x hx => (h.letter r i x hx).trans (Nat.lt_succ_self _),
    fun x hx => h.unborn x (Nat.le_of_succ_le hx), fun x r hx => ?_⟩
  · rcases PartialMap.insert_eq_some.mp hx with ⟨rfl, rfl⟩ | ⟨-, hx⟩
    · exact ⟨Nat.lt_succ_self _, by rw [addSess_sess, update_self]⟩
    · obtain ⟨hlt, huid⟩ := h.index u x hx
      exact ⟨hlt.trans (Nat.lt_succ_self _), (hkeep x hlt).trans huid⟩
  · obtain ⟨hlt, huid⟩ := h.found i u x hi
    exact ⟨hlt.trans (Nat.lt_succ_self _), (hkeep x hlt).trans huid⟩
  · have hlt : x < s.nsess := by
      by_contra hle
      have hnone := h.unborn x (Nat.not_lt.mp hle)
      rw [show s.roomID x = some r from hx] at hnone
      cases hnone
    rw [hkeep x hlt]
    exact h.back x r hx

theorem reply (i : ℕ) (answer : Option (Option JoinErr)) : Carried (s.reply i answer) := by
  obtain ⟨t, ht, hcases⟩ := reply_eq_settle s i answer
  rw [ht]
  refine h.settle fun u x hx => ?_
  rcases hcases with rfl | ⟨_, _, _, todo, _, -, ⟨-, rfl⟩ | ⟨-, rfl⟩⟩
  · exact h.found i u x hx
  · cases todo <;> cases hx
  · cases hx

/-- **Sessions carry the names of rooms that know them**, whatever happens. -/
theorem step {a : WorldAct} (hstep : s.step defs a = some s') : Carried s' := by
  cases happens_of_step hstep with
  | rejected => exact h
  | waits => exact h.congr rfl rfl rfl rfl (fun _ => rfl) (fun _ _ => id) h.found
  | @formed _ _ _ _ matched =>
    have hcreating := h.settle (i := s.tables) (t := .creating matched) nofun
    exact hcreating.congr rfl rfl rfl rfl (fun _ => rfl) (fun _ _ => id) hcreating.found
  | refused => exact h.settle nofun
  | created => exact (h.addRoom _ _).settle nofun
  | found hi hx =>
    refine h.settle ?_
    rintro u x ⟨⟩
    exact h.index _ _ hx
  | notFound => exact h.settle nofun
  | told hi halive =>
    have hfound := h.found _ _ _ (congrArg Settling.found? hi)
    refine (h.post halive ?_).settle ?_
    · rintro i x ⟨⟩
      exact hfound.1
    · rintro u x ⟨⟩
      exact hfound
  | notTold => exact h.settle nofun
  | rolledBack => exact (h.sendLeave _ _ _).settle nofun
  | failed => exact h.settle nofun
  | @handled r cb cb' l rest hmail halive =>
    have hrest : rest ⊆ (s.rooms r).mailbox := hmail ▸ subset_cons_self l rest
    generalize hs' : s.handleLetter r cb cb' rest l = s'
    have hhandles := handles_handleLetter (h.nodup r) cb cb' rest l
    rw [hs'] at hhandles
    cases hhandles with
    | declined => exact (h.thin halive (View.Thins.refl _) hrest).reply _ _
    | @tookIn i x _ w hyes hw =>
      have hx : x < s.nsess := h.letter r i x (hmail ▸ mem_cons_self ..)
      have hin := h.takeIn halive hyes hx hrest
      refine (hin.thin ?_ ?_ ?_).reply _ _
      · rw [write_rooms, update_self]
        exact halive
      · rwa [view_write]
      · rw [write_rooms, update_self]
        exact List.Subset.refl _
    | left hw => exact h.thin halive hw hrest
  | @ran r cb halive => exact h.thin halive (cb.act_thins (h.nodup r)) (List.Subset.refl _)
  | finished halive | crashed halive => exact h.endRoom halive
  | loginAgain => exact (h.setStage _ _).addSess _
  | loginFirst => exact h.addSess _
  | @expired x hx =>
    exact (h.setStage x .unlinked).congr rfl rfl rfl rfl (fun _ => rfl)
      (fun _ _ hx => (PartialMap.erase_eq_some.mp hx).2) (h.setStage x .unlinked).found
  | marked => exact h.setStage _ _
  | @called x hx =>
    exact (h.setStage x _).congr rfl rfl rfl rfl (fun _ => rfl) (fun _ _ => id)
      (h.setStage x _).found
  | left => exact (h.sendLeave _ _ _).setStage _ _
  | leftNone => exact h.setStage _ _

end Carried

end World

end RanGame.App
