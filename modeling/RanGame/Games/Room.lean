import RanGame.Lib.Once

/-!
# Rooms of the smaller games

The part of `internal/room/room.go` that snake, the card game and the quiz use. A game is the record
of its callbacks; every envelope is handled by one of them, which may close the room. Envelopes that
are already in the mailbox are still handled then.

What a room sends, stores and counts is kept in a log. The notes in the players' profiles come in
the order in which the players joined, where the source walks over a map.
-/

namespace RanGame.Games

abbrev Uid := String

/-- What leaves a room: a notification, the result, its record, a point in the ranking, a note in a
profile. -/
inductive Out (N R : Type)
  | memberChange (uid : Uid) (joined : Bool)
  | broadcast (ntf : N)
  | push (uid : Uid) (ntf : N)
  | result (res : R)
  | setSync (res : R)
  | zIncrBy (uid : Uid)
  | patch (uid : Uid) (score : ℕ)
  deriving DecidableEq, Repr

/-- The life of a timer. A callback in the mailbox cannot be cancelled. -/
inductive TimerState
  | armed
  | cancelled
  | posted
  | done
  deriving DecidableEq, Repr

/-- A timer, and as history what it was set for. -/
structure Timer where
  label : ℕ
  state : TimerState
  deriving DecidableEq, Repr

/-- The room: its members as they joined, who is online, every timer ever set, the game, what was
sent. -/
structure Room (L N R : Type) where
  members : List Uid
  closing : Bool
  online : Uid → Bool
  timers : List Timer
  logic : L
  log : List (Out N R)

variable {I M L N R : Type}

namespace Room

/-! ### The room's services -/

def setLogic (s : Room L N R) (l : L) : Room L N R := { s with logic := l }

def emit (s : Room L N R) (outs : List (Out N R)) : Room L N R := { s with log := s.log ++ outs }

/-- `m, ok := Member(uid); ok && !m.Online()` -/
def offline (s : Room L N R) (uid : Uid) : Bool := uid ∈ s.members && !s.online uid

def after (s : Room L N R) (label : ℕ) : Room L N R :=
  { s with timers := s.timers ++ [⟨label, .armed⟩] }

def markTimer (s : Room L N R) (k : ℕ) (state : TimerState) : Room L N R :=
  { s with timers := s.timers.modify k fun t => { t with state } }

/-- `Handle.Cancel`, of no effect unless the timer is still running. -/
def cancel (s : Room L N R) : Option ℕ → Room L N R
  | none => s
  | some k =>
    { s with timers :=
        s.timers.modify k fun t => if t.state = .armed then { t with state := .cancelled } else t }

@[simp] theorem logic_cancel (s : Room L N R) (k : Option ℕ) : (s.cancel k).logic = s.logic := by
  cases k <;> rfl

/-- `doClose`: after `OnDestroy` the members go. -/
def close (onDestroy : L → List (Out N R)) (s : Room L N R) : Room L N R :=
  if s.closing then s else { s with closing := true, members := [] }.emit (onDestroy s.logic)

@[simp] theorem logic_close (onDestroy : L → List (Out N R)) (s : Room L N R) :
    (s.close onDestroy).logic = s.logic := by
  rw [close]
  split <;> rfl

@[simp] theorem timers_close (onDestroy : L → List (Out N R)) (s : Room L N R) :
    (s.close onDestroy).timers = s.timers := by
  rw [close]
  split <;> rfl

end Room

/-- What the end of a game sends, stores and counts: nothing for nobody. -/
def settlement (res : R) (winner : Uid) : List (Out N R) :=
  [.result res, .setSync res] ++ if winner = "" then [] else [.zIncrBy winner]

/-! ### Steps -/

/-- The callbacks of a game. `I` is what the runtime decides during a tick, `M` a player's request.
-/
structure Game (I M L N R : Type) where
  maxPlayers : ℕ
  onJoin : Uid → Room L N R → Room L N R
  onMessage : Uid → M → Room L N R → Room L N R
  tick : I → Room L N R → Room L N R
  onTimer : Room L N R → Room L N R
  onLeave : Uid → Room L N R → Room L N R
  onTimeout : Room L N R → Room L N R
  onDestroy : L → List (Out N R)

/-- What can happen to a room: the first two at any moment, the others from the mailbox. -/
inductive Act (I M : Type)
  | setOnline (uid : Uid) (online : Bool)
  | expire (k : ℕ)
  | fire (k : ℕ)
  | join (uid : Uid)
  | leave (uid : Uid)
  | message (uid : Uid) (req : M)
  | tick (it : I)
  | timeout
  | close

namespace Game

def join (g : Game I M L N R) (s : Room L N R) (uid : Uid) : Room L N R :=
  if s.closing ∨ uid ∈ s.members ∨ s.members.length ≥ g.maxPlayers then s
  else g.onJoin uid { s with members := s.members ++ [uid] }

/-- `handleLeave`. `OnEmpty` of every game closes the room. -/
def leave (g : Game I M L N R) (s : Room L N R) (uid : Uid) : Room L N R :=
  if s.closing ∨ uid ∉ s.members then s
  else
    let s := g.onLeave uid { s with members := s.members.erase uid }
    if s.members = [] then s.close g.onDestroy else s

def step (g : Game I M L N R) (s : Room L N R) : Act I M → Option (Room L N R)
  | .setOnline uid online => some { s with online := Function.update s.online uid online }
  | .expire k =>
    match s.timers[k]? with
    | some ⟨_, .armed⟩ => some (s.markTimer k .posted)
    | _ => none
  | .fire k =>
    match s.timers[k]? with
    | some ⟨_, .posted⟩ => some (g.onTimer (s.markTimer k .done))
    | _ => none
  | .join uid => some (g.join s uid)
  | .leave uid => some (g.leave s uid)
  | .message uid req => some (if uid ∈ s.members then g.onMessage uid req s else s)
  | .tick it => some (g.tick it s)
  | .timeout => some ((g.onTimeout s).close g.onDestroy)
  | .close => some (s.close g.onDestroy)

end Game

def newRoom (l : L) : Room L N R where
  members := []
  closing := false
  online _ := true
  timers := []
  logic := l
  log := []

/-! ### Settling a game once -/

/-- Is it part of the settlement: the result, the record, or the point in the ranking? -/
def Out.settles : Out N R → Bool
  | .result _ | .setSync _ | .zIncrBy _ => true
  | _ => false

def Out.isResult : Out N R → Bool
  | .result _ => true
  | _ => false

def Out.isRecord : Out N R → Bool
  | .setSync _ => true
  | _ => false

def Out.isRanking : Out N R → Bool
  | .zIncrBy _ => true
  | _ => false

namespace Room

/-- What the settlement of the game has sent, stored and counted. -/
def accounts (s : Room L N R) : List (Out N R) := s.log.filter Out.settles

def Settled (outs : List (Out N R)) : Prop := ∃ res winner, outs = settlement res winner

def results (s : Room L N R) : ℕ := s.log.countP Out.isResult

def records (s : Room L N R) : ℕ := s.log.countP Out.isRecord

def rankings (s : Room L N R) : ℕ := s.log.countP Out.isRanking

/-- A part of a handler lets everybody stay, or closes the room. -/
def Stays (s s' : Room L N R) : Prop :=
  (s'.closing, s'.members) = (s.closing, s.members) ∨ (s'.closing, s'.members) = (true, [])

/-- Nobody is in a room that is closed. -/
def Shut (s : Room L N R) : Prop := s.closing = true → s.members = []

/-- A part of a handler that settles nothing. -/
structure Quiet (finished : L → Bool) (s s' : Room L N R) : Prop where
  finished_eq : finished s'.logic = finished s.logic
  accounts_eq : s'.accounts = s.accounts
  stays : Stays s s'

/-- A part of a handler settles nothing, or a game that was not finished, with a winner that `W`
allows. -/
inductive Settles (finished : L → Bool) (W : R → Uid → L → Prop) (s s' : Room L N R) : Prop
  | nothing (hsame : finished s'.logic = finished s.logic) (hacc : s'.accounts = s.accounts)
  | game {res : R} {winner : Uid} (hopen : finished s.logic = false)
      (hdone : finished s'.logic = true)
      (hacc : s'.accounts = s.accounts ++ settlement res winner) (hw : W res winner s'.logic)

/-- What a part of a handler does to the accounts, and to who is in the room. -/
structure Turn (finished : L → Bool) (W : R → Uid → L → Prop) (s s' : Room L N R) : Prop where
  settles : Settles finished W s s'
  stays : Stays s s'

section Turn

variable {finished : L → Bool} {W : R → Uid → L → Prop} {s s' : Room L N R}

theorem Stays.shut (h : Stays s s') (hs : Shut s) : Shut s' := by
  rcases h with h | h <;> obtain ⟨hclosing, hmembers⟩ := Prod.mk.inj h
  · intro hc
    rw [hmembers]
    exact hs (hclosing ▸ hc)
  · exact fun _ => hmembers

theorem accounts_emit (s : Room L N R) (outs : List (Out N R)) :
    (s.emit outs).accounts = s.accounts ++ outs.filter Out.settles :=
  List.filter_append ..

theorem Quiet.refl (s : Room L N R) : Quiet finished s s := ⟨rfl, rfl, .inl rfl⟩

theorem Settles.once (h : Settles finished W s s') :
    Once.Turn (fun s : Room L N R => finished s.logic) accounts Settled s s' := by
  cases h with
  | nothing hsame hacc => exact .quiet hsame hacc
  | game hopen hdone hacc => exact .batch hopen hdone ⟨_, _, rfl⟩ hacc

/-- What a handler does to the members or the timers first is not part of it. -/
theorem Turn.shut {r : Room L N R} (h : Turn finished W r s') (hr : Shut r)
    (hlogic : r.logic = s.logic) (hlog : r.log = s.log) :
    Settles finished W s s' ∧ Shut s' := by
  refine ⟨?_, h.stays.shut hr⟩
  have hacc' : r.accounts = s.accounts := congrArg (List.filter Out.settles) hlog
  cases h.settles with
  | nothing hsame hacc => exact .nothing (hlogic ▸ hsame) (hacc.trans hacc')
  | game hopen hdone hacc hw => exact .game (hlogic ▸ hopen) hdone (hacc' ▸ hacc) hw

section

variable (h : Quiet finished s s')

include h

theorem Quiet.turn : Turn finished W s s' := ⟨.nothing h.finished_eq h.accounts_eq, h.stays⟩

theorem Quiet.setLogic {l : L} (hl : finished l = finished s'.logic) :
    Quiet finished s (s'.setLogic l) := ⟨hl.trans h.finished_eq, h.accounts_eq, h.stays⟩

theorem Quiet.emit {outs : List (Out N R)} (ho : outs.filter Out.settles = []) :
    Quiet finished s (s'.emit outs) := by
  refine ⟨h.finished_eq, ?_, h.stays⟩
  rw [accounts_emit, ho, List.append_nil]
  exact h.accounts_eq

theorem Quiet.told {l : L} (hl : finished l = finished s'.logic) {o : Out N R}
    (ho : o.settles = false) : Quiet finished s ((s'.setLogic l).emit [o]) :=
  (h.setLogic hl).emit (List.filter_cons_of_neg (by rw [ho]; exact Bool.false_ne_true))

theorem Quiet.after {label : ℕ} : Quiet finished s (s'.after label) := { h with }

theorem Quiet.cancel {k : Option ℕ} : Quiet finished s (s'.cancel k) := by
  cases k with
  | none => exact h
  | some k => exact { h with }

end

theorem accounts_close {onDestroy : L → List (Out N R)}
    (hd : ∀ l, (onDestroy l).filter Out.settles = []) (s : Room L N R) :
    (s.close onDestroy).accounts = s.accounts := by
  rw [close]
  split
  · rfl
  · rw [accounts_emit, hd, List.append_nil]
    rfl

theorem Stays.close (h : Stays s s') (onDestroy : L → List (Out N R)) :
    Stays s (s'.close onDestroy) := by
  rw [Room.close]
  split
  · exact h
  · exact .inr rfl

theorem Turn.close (h : Turn finished W s s') {onDestroy : L → List (Out N R)}
    (hd : ∀ l, (onDestroy l).filter Out.settles = []) :
    Turn finished W s (s'.close onDestroy) := by
  refine ⟨?_, h.stays.close onDestroy⟩
  cases h.settles with
  | nothing hsame hacc =>
    exact .nothing (by rw [logic_close, hsame]) ((accounts_close hd s').trans hacc)
  | game hopen hdone hacc hw =>
    exact .game hopen (by rw [logic_close, hdone]) ((accounts_close hd s').trans hacc)
      (by rwa [logic_close])

theorem filter_patches {α : Type} (entries : List α) (uid : α → Uid) (score : α → ℕ) :
    (entries.map fun e => (.patch (uid e) (score e) : Out N R)).filter Out.settles = [] := by
  rw [List.filter_map, List.map_eq_nil_iff]
  exact List.filter_eq_nil_iff.mpr fun _ _ => Bool.false_ne_true

theorem filter_settlement (res : R) (winner : Uid) :
    (settlement res winner : List (Out N R)).filter Out.settles = settlement res winner := by
  rw [settlement]
  split <;> rfl

theorem Quiet.settle (h : Quiet finished s s') {l : L} {res : R} {winner : Uid}
    (hopen : finished s'.logic = false) (hdone : finished l = true) (hw : W res winner l) :
    Turn finished W s ((s'.setLogic l).emit (settlement res winner)) := by
  refine ⟨.game (h.finished_eq.symm.trans hopen) hdone ?_ hw, h.stays⟩
  rw [accounts_emit, filter_settlement, ← h.accounts_eq]
  rfl

theorem countP_log {p : Out N R → Bool} (hp : ∀ o, p o = true → o.settles = true)
    (s : Room L N R) : s.log.countP p = s.accounts.countP p := by
  rw [accounts, List.countP_filter]
  refine List.countP_congr fun o _ => ?_
  rw [Bool.and_eq_true]
  exact ⟨fun h => ⟨h, hp o h⟩, And.left⟩

theorem counts_of_accounts (h : s.accounts = [] ∨ Settled s.accounts) :
    s.results ≤ 1 ∧ s.records ≤ 1 ∧ s.rankings ≤ 1 := by
  have hresult : s.results = s.accounts.countP Out.isResult :=
    countP_log (fun o h => by cases o <;> first | rfl | cases h) s
  have hrecord : s.records = s.accounts.countP Out.isRecord :=
    countP_log (fun o h => by cases o <;> first | rfl | cases h) s
  have hranking : s.rankings = s.accounts.countP Out.isRanking :=
    countP_log (fun o h => by cases o <;> first | rfl | cases h) s
  rw [hresult, hrecord, hranking]
  rcases h with h | ⟨res, winner, h⟩
  · rw [h]
    simp
  · rw [h, settlement]
    split
    · exact ⟨le_refl 1, le_refl 1, Nat.zero_le 1⟩
    · exact ⟨le_refl 1, le_refl 1, le_refl 1⟩

end Turn

end Room

namespace Game

open Room

/-- Every callback settles the game at most once, with a winner that `W` allows. -/
structure SettlesOnce (g : Game I M L N R) (finished : L → Bool)
    (W : Act I M → L → R → Uid → L → Prop) : Prop where
  onJoin : ∀ uid s, Quiet finished s (g.onJoin uid s)
  onMessage : ∀ uid req s, Shut s →
    Turn finished (W (.message uid req) s.logic) s (g.onMessage uid req s)
  tick : ∀ it s, Shut s → Turn finished (W (.tick it) s.logic) s (g.tick it s)
  onTimer : ∀ k s, Turn finished (W (.fire k) s.logic) s (g.onTimer s)
  onLeave : ∀ uid s, Turn finished (W (.leave uid) s.logic) s (g.onLeave uid s)
  onTimeout : ∀ s, Turn finished (W .timeout s.logic) s (g.onTimeout s)
  onDestroy : ∀ l, (g.onDestroy l).filter Out.settles = []

variable {g : Game I M L N R} {finished : L → Bool} {W : Act I M → L → R → Uid → L → Prop}
  {s s' : Room L N R} {a : Act I M}

variable (h : g.SettlesOnce finished W)

include h

/-- **A step settles nothing, or a game that was not finished.** -/
theorem SettlesOnce.step (hs : Shut s) (hstep : g.step s a = some s') :
    Settles finished (W a s.logic) s s' ∧ Shut s' := by
  have hrefl : Turn finished (W a s.logic) s s := (Quiet.refl s).turn
  cases a with
  | setOnline uid online =>
    cases hstep
    exact ⟨.nothing rfl rfl, hs⟩
  | expire k =>
    simp only [Game.step] at hstep
    split at hstep <;> cases hstep
    exact ⟨.nothing rfl rfl, hs⟩
  | fire k =>
    simp only [Game.step] at hstep
    split at hstep <;> cases hstep
    exact (h.onTimer k (s.markTimer k .done)).shut hs rfl rfl
  | join uid =>
    cases hstep
    rw [Game.join]
    split
    · exact hrefl.shut hs rfl rfl
    next hopen =>
      have hjoined := h.onJoin uid { s with members := s.members ++ [uid] }
      exact hjoined.turn.shut (fun hc => absurd hc (not_or.mp hopen).1) rfl rfl
  | leave uid =>
    cases hstep
    rw [Game.leave]
    split
    · exact hrefl.shut hs rfl rfl
    next hopen =>
      have hleft := h.onLeave uid { s with members := s.members.erase uid }
      have hshut : Shut { s with members := s.members.erase uid } :=
        fun hc => absurd hc (not_or.mp hopen).1
      dsimp only
      split
      · exact (hleft.close h.onDestroy).shut hshut rfl rfl
      · exact hleft.shut hshut rfl rfl
  | message uid req =>
    cases hstep
    split
    · exact (h.onMessage uid req s hs).shut hs rfl rfl
    · exact hrefl.shut hs rfl rfl
  | tick it =>
    cases hstep
    exact (h.tick it s hs).shut hs rfl rfl
  | timeout =>
    cases hstep
    exact ((h.onTimeout s).close h.onDestroy).shut hs rfl rfl
  | close =>
    cases hstep
    exact (hrefl.close h.onDestroy).shut hs rfl rfl

variable {l : L} {acts : List (Act I M)} (hrun : Machine.run g.step (newRoom l) acts = some s)

include hrun

theorem SettlesOnce.settles_of_run (hstep : g.step s a = some s') :
    Settles finished (W a s.logic) s s' := by
  have hs : Shut s := Machine.invariant_of_run (fun _ _ _ hs _ hstep => (h.step hs hstep).2)
    (fun _ => rfl) Machine.along_true hrun
  exact (h.step hs hstep).1

/-- **A game is settled at most once in every run.** -/
theorem SettlesOnce.counts_of_run : s.results ≤ 1 ∧ s.records ≤ 1 ∧ s.rankings ≤ 1 := by
  have hinit : Shut (newRoom l : Room L N R) := fun _ => rfl
  refine counts_of_accounts ?_
  exact Once.batch_of_run (fun _ _ _ hs hstep => (h.step hs hstep).imp_left Settles.once) rfl
    hinit hrun

end Game

end RanGame.Games
