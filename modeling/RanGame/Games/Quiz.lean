import RanGame.Games.Room

/-!
# The quiz

A model of `games/quiz/logic.go` and of the questions in `messages.go`. The next question is asked
when everybody has answered, or when the timer fires, whatever question it was set for; that is
recorded in the label of the timer, which the game does not read. The map of players and the order
in which they joined are one list here.
-/

namespace RanGame.Games

namespace QuizGame

/-! ### State -/

/-- `Questions`: the questions of one game. -/
def questions : ℕ := 5

def timeLimitMS : ℕ := 2000

structure Question where
  text : String
  options : List String
  answer : ℤ
  deriving DecidableEq, Repr

def bank : List Question :=
  [⟨"1+1=?", ["2", "3", "11"], 0⟩, ⟨"Go 中声明函数的关键字?", ["def", "func", "fn"], 1⟩,
   ⟨"HTTP 404 含义?", ["OK", "Server Error", "Not Found"], 2⟩,
   ⟨"2 的 3 次方?", ["6", "8", "9"], 1⟩,
   ⟨"TCP 属于哪一层协议?", ["传输层", "应用层", "网络层"], 0⟩,
   ⟨"以下哪个不是 Go 的并发原语?", ["goroutine", "thread", "channel"], 1⟩,
   ⟨"JSON 中表示 null 的字面量?", ["nil", "null", "none"], 1⟩,
   ⟨"WebSocket 默认端口(over TLS)?", ["80", "443", "8080"], 1⟩]

structure Player where
  uid : Uid
  answered : List ℕ
  score : ℕ
  deriving DecidableEq, Repr

/-- `Logic`, with the number of players of its configuration. -/
structure Logic where
  maxPlayers : ℕ
  players : List Player
  cur : ℕ
  started : Bool
  finished : Bool
  qTimer : Option ℕ
  deriving DecidableEq

structure QuestionNtf where
  idx : ℕ
  text : String
  options : List String
  timeLimitMS : ℕ
  total : ℕ
  deriving DecidableEq, Repr

/-- `ResultNtf`. Without a winner the game is a draw. -/
structure ResultNtf where
  winner : Uid
  scores : List (Uid × ℕ)
  deriving DecidableEq, Repr

abbrev Room := Games.Room Logic QuestionNtf ResultNtf

/-- What a player can ask for: `AnswerReq`, or something that is none. -/
inductive Request
  | answer (idx option : ℤ)
  | other

namespace Logic

def player (l : Logic) (uid : Uid) : Option Player := l.players.find? (·.uid = uid)

def modify (l : Logic) (uid : Uid) (f : Player → Player) : Logic :=
  { l with players := l.players.map fun p => if p.uid = uid then f p else p }

def scores (l : Logic) : List (Uid × ℕ) := l.players.map fun p => (p.uid, p.score)

def allAnswered (l : Logic) (q : ℕ) : Bool := l.players.all fun p => q ∈ p.answered

end Logic

/-! ### The course of a game -/

def onDestroy (l : Logic) : List (Out QuestionNtf ResultNtf) :=
  l.players.map fun p => .patch p.uid p.score

/-- The highest score, who has it first, and whether somebody else has it too. -/
def best (players : List Player) : ℤ × Uid × Bool :=
  players.foldl (fun best p =>
    if (p.score : ℤ) > best.1 then (p.score, p.uid, false)
    else if (p.score : ℤ) = best.1 then (best.1, best.2.1, true)
    else best) (-1, "", false)

/-- The player with the highest score, nobody if it is shared. -/
def winner (l : Logic) : Uid := if (best l.players).2.2 then "" else (best l.players).2.1

def finish (s : Room) : Room :=
  let l := s.logic
  ((s.setLogic { l with finished := true }).emit
    (settlement ⟨winner l, l.scores⟩ (winner l))).close onDestroy

/-- `askQuestion`. There are more questions than are asked. -/
def askQuestion (s : Room) : Room :=
  let cur := s.logic.cur
  match bank[cur]? with
  | none => s
  | some q =>
    ((s.emit [.broadcast ⟨cur, q.text, q.options, timeLimitMS, questions⟩]).after cur).setLogic
      { s.logic with qTimer := some s.timers.length }

def next (s : Room) : Room :=
  if s.logic.finished then s
  else
    let s := (s.cancel s.logic.qTimer).setLogic
      { s.logic with qTimer := none, cur := s.logic.cur + 1 }
    if s.logic.cur ≥ questions then finish s else askQuestion s

/-! ### Callbacks -/

/-- `OnJoin`: when the room is full, the first question is asked. -/
def onJoin (uid : Uid) (s : Room) : Room :=
  let l := s.logic
  let s := (s.setLogic { l with players := l.players ++ [⟨uid, [], 0⟩] }).emit
    [.memberChange uid true]
  if s.logic.players.length ≥ s.logic.maxPlayers then
    askQuestion (s.setLogic { s.logic with started := true })
  else s

def answer (l : Logic) (uid : Uid) (correct : Bool) : Logic :=
  l.modify uid fun p =>
    { p with
      answered := p.answered ++ [l.cur]
      score := if correct then p.score + 1 else p.score }

/-- `OnMessage`: everybody may answer the current question once. -/
def onMessage (uid : Uid) (req : Request) (s : Room) : Room :=
  let l := s.logic
  match req, l.player uid, bank[l.cur]? with
  | .answer idx option, some p, some q =>
    if !l.started || l.finished then s
    else if l.cur ≥ questions then s
    else if idx ≠ l.cur ∨ l.cur ∈ p.answered ∨ option < 0 ∨ option ≥ q.options.length then s
    else
      let s := s.setLogic (answer l uid (option = q.answer))
      if s.logic.allAnswered l.cur then next s else s
  | _, _, _ => s

/-- `OnLeave`: when one player is left the game is over. -/
def onLeave (uid : Uid) (s : Room) : Room :=
  let l := { s.logic with players := s.logic.players.filter (·.uid ≠ uid) }
  let s := (s.setLogic l).emit [.memberChange uid false]
  if l.started && !l.finished && l.players.length = 1 then finish (s.cancel l.qTimer) else s

/-- `Module` with a configured number of players. Ticks and the end of the time do nothing. -/
def game (maxPlayers : ℕ) : Game Unit Request Logic QuestionNtf ResultNtf where
  maxPlayers
  onJoin
  onMessage
  tick _ s := s
  onTimer := next
  onLeave
  onTimeout := id
  onDestroy

def newGame (maxPlayers : ℕ) : Room := newRoom ⟨maxPlayers, [], 0, false, false, none⟩

/-! ### The game is settled once -/

open Games.Room

section Turn

variable {s s' : Room}

theorem filter_onDestroy (l : Logic) : (onDestroy l).filter Out.settles = [] := filter_patches _ _ _

theorem turn_finish {W : ResultNtf → Uid → Logic → Prop} (h : Quiet Logic.finished s s')
    (hfin : s'.logic.finished = false)
    (hw : ∀ res, W res (winner s'.logic) { s'.logic with finished := true }) :
    Turn Logic.finished W s (finish s') :=
  (h.settle hfin rfl (hw _)).close filter_onDestroy

theorem quiet_askQuestion (h : Quiet Logic.finished s s') :
    Quiet Logic.finished s (askQuestion s') := by
  rw [askQuestion]
  dsimp only
  split
  · exact h
  · exact .setLogic (.after (.emit h (by rfl))) (by rfl)

theorem quiet_onJoin (uid : Uid) (s : Room) : Quiet Logic.finished s (onJoin uid s) := by
  rw [onJoin]
  dsimp only
  split
  · exact quiet_askQuestion (.setLogic (.told (.refl s) (by rfl) rfl) (by rfl))
  · exact .told (.refl s) (by rfl) rfl

theorem winner_mem (l : Logic) : winner l = "" ∨ winner l ∈ l.players.map Player.uid := by
  rw [winner]
  split
  · exact .inl rfl
  · refine List.foldlRecOn l.players _ (motive := fun best : ℤ × Uid × Bool => best.2.1 = "" ∨
      best.2.1 ∈ l.players.map Player.uid) (.inl rfl) fun best hbest p hp => ?_
    split
    · exact .inr (List.mem_map_of_mem hp)
    · split <;> exact hbest

/-- The winner, if any, plays, and the game had started, unless a timer has expired. -/
def Wins (a : Act Unit Request) (l : Logic) (_ : ResultNtf) (winner : Uid) (l' : Logic) : Prop :=
  (winner = "" ∨ winner ∈ l'.players.map Player.uid) ∧ (l.started = true ∨ ∃ k, a = .fire k)

theorem turn_next {a : Act Unit Request} (h : Quiet Logic.finished s s')
    (ha : s.logic.started = true ∨ ∃ k, a = .fire k) :
    Turn Logic.finished (Wins a s.logic) s (next s') := by
  rw [next]
  split
  · exact h.turn
  next hfin =>
    have hnext : Quiet Logic.finished s ((s'.cancel s'.logic.qTimer).setLogic
        { s'.logic with qTimer := none, cur := s'.logic.cur + 1 }) :=
      h.cancel.setLogic (by rw [logic_cancel])
    dsimp only
    split
    · exact turn_finish hnext (Bool.eq_false_iff.mpr hfin) fun _ => ⟨winner_mem _, ha⟩
    · exact (quiet_askQuestion hnext).turn

theorem turn_onMessage (uid : Uid) (req : Request) (s : Room) :
    Turn Logic.finished (Wins (.message uid req) s.logic) s (onMessage uid req s) := by
  have hrefl : Quiet Logic.finished s s := .refl s
  unfold onMessage
  dsimp only
  split
  · split
    · exact hrefl.turn
    rename_i hrunning
    simp only [Bool.or_eq_true, Bool.not_eq_true', not_or, Bool.not_eq_false] at hrunning
    split
    · exact hrefl.turn
    split
    · exact hrefl.turn
    split
    · exact turn_next (hrefl.setLogic (by rfl)) (.inl hrunning.1)
    · exact (hrefl.setLogic (by rfl)).turn
  · exact hrefl.turn

theorem turn_onLeave (uid : Uid) (s : Room) :
    Turn Logic.finished (Wins (.leave uid) s.logic) s (onLeave uid s) := by
  set l := { s.logic with players := s.logic.players.filter (·.uid ≠ uid) } with hl
  have hleft : Quiet Logic.finished s ((s.setLogic l).emit [.memberChange uid false]) :=
    .told (.refl s) (by rfl) rfl
  change Turn _ _ s (if _ then _ else _)
  split
  next hend =>
    simp only [Bool.and_eq_true, Bool.not_eq_true'] at hend
    refine turn_finish hleft.cancel ?_ fun _ => ⟨winner_mem _, .inl hend.1.1⟩
    rw [logic_cancel]
    exact hend.1.2
  · exact hleft.turn

end Turn

theorem settlesOnce (maxPlayers : ℕ) : (game maxPlayers).SettlesOnce Logic.finished Wins where
  onJoin := quiet_onJoin
  onMessage uid req s _ := turn_onMessage uid req s
  tick _ s _ := (Quiet.refl s).turn
  onTimer k s := turn_next (.refl s) (.inr ⟨k, rfl⟩)
  onLeave := turn_onLeave
  onTimeout s := (Quiet.refl s).turn
  onDestroy := filter_onDestroy

end QuizGame

end RanGame.Games
