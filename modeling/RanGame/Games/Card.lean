import RanGame.Games.Room

/-!
# The card game

A model of `games/card/logic.go`. In every round each player plays one card of their hand, and the
highest one wins a point. The map of players and the order in which they joined are one list here.
Points come from a signed remainder, so that they are not always positive.
-/

namespace RanGame.Games

namespace CardGame

/-! ### State -/

/-- `HandCards`: the cards of a hand, and the rounds of a game. -/
def handCards : ℕ := 5

structure Card where
  point : ℤ
  deriving DecidableEq, Repr

/-- `cardPlayer`. `used` are the indices of cards played, `play` is the one chosen now. -/
structure Player where
  uid : Uid
  hand : List Card
  used : List ℕ
  play : Option ℕ
  score : ℕ
  deriving DecidableEq, Repr

/-- `Logic`, with the number of players of its configuration. -/
structure Logic where
  maxPlayers : ℕ
  players : List Player
  round : ℕ
  started : Bool
  finished : Bool
  seed : BitVec 64
  deriving DecidableEq

structure PlayNtf where
  uid : Uid
  card : Card
  win : Bool
  score : ℕ
  deriving DecidableEq, Repr

/-- What the game tells its players: `DealNtf` and `RoundNtf`. -/
inductive Ntf
  | deal (hand : List Card) (totalRounds : ℕ)
  | round (round : ℕ) (plays : List PlayNtf) (isLast : Bool)
  deriving DecidableEq, Repr

structure ResultNtf where
  winner : Uid
  rounds : ℕ
  scores : List (Uid × ℕ)
  timeout : Bool
  deriving DecidableEq, Repr

abbrev Room := Games.Room Logic Ntf ResultNtf

/-- What a player can ask for: `PlayReq`, or something that is none. -/
inductive Request
  | play (idx : ℤ)
  | other

namespace Logic

def order (l : Logic) : List Uid := l.players.map Player.uid

def player (l : Logic) (uid : Uid) : Option Player := l.players.find? (·.uid = uid)

def modify (l : Logic) (uid : Uid) (f : Player → Player) : Logic :=
  { l with players := l.players.map fun p => if p.uid = uid then f p else p }

def scores (l : Logic) : List (Uid × ℕ) := l.players.map fun p => (p.uid, p.score)

end Logic

/-! ### Dealing -/

def next (seed : BitVec 64) : BitVec 64 := seed * 1103515245#64 + 12345#64

/-- The card that a seed stands for. The remainder has the sign of the shifted seed. -/
def drawn (seed : BitVec 64) : Card := ⟨(seed.sshiftRight 16).toInt.tmod 13 + 1⟩

/-- A deck of `n` cards, and the seed after it. -/
def makeDeck : ℕ → BitVec 64 → List Card × BitVec 64
  | 0, seed => ([], seed)
  | n + 1, seed =>
    let rest := makeDeck n (next seed)
    (drawn (next seed) :: rest.1, rest.2)

/-- The cards of the `i`th of `k` players. -/
def share (deck : List Card) (k i : ℕ) : List Card :=
  (List.range handCards).filterMap fun j => deck[i + j * k]?

/-- The cards are dealt in turn, to those that a player may already have. -/
def dealt (l : Logic) : Logic :=
  let k := l.players.length
  let deck := makeDeck (k * handCards) l.seed
  { l with
    seed := deck.2
    players := l.players.mapIdx fun i p => { p with hand := p.hand ++ share deck.1 k i } }

/-- `deal`: every player is told their own hand. -/
def deal (s : Room) : Room :=
  let l := dealt s.logic
  (s.setLogic l).emit <| l.players.flatMap fun p =>
    if p.uid ∈ s.members then [.push p.uid (.deal p.hand handCards)] else []

def onDestroy (l : Logic) : List (Out Ntf ResultNtf) := l.players.map fun p => .patch p.uid p.score

def finish (s : Room) (winner : Uid) (timeout : Bool) : Room :=
  let l := s.logic
  ((s.setLogic { l with finished := true }).emit
    (settlement ⟨winner, l.round, l.scores, timeout⟩ winner)).close onDestroy

/-! ### Rounds -/

/-- The card a player has chosen. What is chosen is always an index of the hand. -/
def Player.card (p : Player) : Card := (p.play.bind (p.hand[·]?)).getD ⟨0⟩

/-- The highest points of a round, and who played them. -/
def best (players : List Player) : ℤ × List Uid :=
  players.foldl (fun best p =>
    if p.card.point > best.1 then (p.card.point, [p.uid])
    else if p.card.point = best.1 then (best.1, best.2 ++ [p.uid])
    else best) (-1, [])

/-- The game after a round: the cards are used, and a single winner has one more point. -/
def resolved (l : Logic) : Logic :=
  let winners := (best l.players).2
  { l with
    round := l.round + 1
    players := l.players.map fun p =>
      { p with
        used := p.used ++ p.play.toList
        play := none
        score := if winners = [p.uid] then p.score + 1 else p.score } }

def plays (players : List Player) : List PlayNtf :=
  players.map fun p => ⟨p.uid, p.card, p.uid ∈ (best players).2, 0⟩

/-- The second half of `tryResolveRound`: everybody is told what was played. -/
def resolveRound (s : Room) : Room :=
  let l := resolved s.logic
  (s.setLogic l).emit [.broadcast (.round l.round (plays s.logic.players) (l.round ≥ handCards))]

/-- `tryResolveRound`: when everybody has chosen, the round is decided; the last one ends the game.
-/
def tryResolveRound (s : Room) : Room :=
  if s.logic.players.length < s.logic.maxPlayers then s
  else if s.logic.players.any (·.play.isNone) then s
  else
    let s := resolveRound s
    if s.logic.round ≥ handCards then finish s "" false else s

/-! ### Callbacks -/

/-- `OnJoin`: when the room is full, the game starts. -/
def onJoin (uid : Uid) (s : Room) : Room :=
  let l := s.logic
  let s := (s.setLogic { l with players := l.players ++ [⟨uid, [], [], none, 0⟩] }).emit
    [.memberChange uid true]
  if s.logic.players.length ≥ s.logic.maxPlayers then
    deal (s.setLogic { s.logic with started := true })
  else s

/-- `OnMessage`: a card that is in the hand and was not played yet. -/
def onMessage (uid : Uid) (req : Request) (s : Room) : Room :=
  match req, s.logic.player uid with
  | .play idx, some p =>
    if !s.logic.started || s.logic.finished then s
    else if p.play.isSome || p.hand.isEmpty then s
    else if idx < 0 ∨ idx ≥ p.hand.length ∨ idx.toNat ∈ p.used then s
    else
      tryResolveRound (s.setLogic (s.logic.modify uid fun p => { p with play := some idx.toNat }))
  | _, _ => s

/-- The first card of the hand that was not played yet. -/
def Player.firstUnused (p : Player) : Option ℕ := (List.range p.hand.length).find? (· ∉ p.used)

/-- Play for a player who is offline and has not chosen. -/
def autoPlay (s : Room) (uid : Uid) : Room :=
  match s.logic.player uid with
  | none => s
  | some p =>
    if p.play.isSome then s
    else if s.offline uid then
      tryResolveRound (s.setLogic (s.logic.modify uid fun p => { p with play := p.firstUnused }))
    else s

def onTick (_ : Unit) (s : Room) : Room :=
  if !s.logic.started || s.logic.finished then s else s.logic.order.foldl autoPlay s

/-- `OnLeave`: who is left alone has won. -/
def onLeave (uid : Uid) (s : Room) : Room :=
  let l := { s.logic with players := s.logic.players.filter (·.uid ≠ uid) }
  let s := (s.setLogic l).emit [.memberChange uid false]
  match l.order with
  | [winner] => if l.started && !l.finished then finish s winner false else s
  | _ => s

/-- The player with the highest score, the first of several. -/
def leader (l : Logic) : Uid :=
  (l.players.foldl (fun (best : ℤ × Uid) p =>
    if (p.score : ℤ) > best.1 then (p.score, p.uid) else best) (-1, "")).2

/-- `OnTimeout`. It does not ask whether the game has started. -/
def onTimeout (s : Room) : Room := if s.logic.finished then s else finish s (leader s.logic) true

/-- `Module` with a configured number of players. -/
def game (maxPlayers : ℕ) : Game Unit Request Logic Ntf ResultNtf where
  maxPlayers
  onJoin
  onMessage
  tick := onTick
  onTimer := id
  onLeave
  onTimeout
  onDestroy

/-- `NewLogic` in a new room. The seed of the source is 20260922. -/
def newGame (maxPlayers : ℕ) (seed : BitVec 64) : Room :=
  newRoom ⟨maxPlayers, [], 0, false, false, seed⟩

/-! ### The game is settled once -/

open Games.Room

section Turn

variable {s s' s'' : Room}

theorem filter_onDestroy (l : Logic) : (onDestroy l).filter Out.settles = [] := filter_patches _ _ _

theorem turn_finish (h : Quiet Logic.finished s s') (hfin : s'.logic.finished = false)
    {W : ResultNtf → Uid → Logic → Prop} {winner : Uid} {timeout : Bool}
    (hw : ∀ res : ResultNtf, res.winner = winner → W res winner { s'.logic with finished := true }) :
    Turn Logic.finished W s (finish s' winner timeout) :=
  (h.settle hfin rfl (hw _ rfl)).close filter_onDestroy

theorem quiet_deal (h : Quiet Logic.finished s s') : Quiet Logic.finished s (deal s') := by
  have hdealt : Quiet Logic.finished s (s'.setLogic (dealt s'.logic)) := h.setLogic (by rfl)
  refine hdealt.emit ?_
  rw [List.filter_eq_nil_iff]
  intro o ho
  obtain ⟨p, -, ho⟩ := List.mem_flatMap.mp ho
  split at ho
  · rw [List.mem_singleton.mp ho]
    exact Bool.false_ne_true
  · cases ho

theorem quiet_onJoin (uid : Uid) (s : Room) : Quiet Logic.finished s (onJoin uid s) := by
  rw [onJoin]
  dsimp only
  split
  · exact quiet_deal (.setLogic (.told (.refl s) (by rfl) rfl) (by rfl))
  · exact .told (.refl s) (by rfl) rfl

/-- Who wins: who is left alone, the leader when time is up, nobody in the last round. -/
def Wins (a : Act Unit Request) (l : Logic) (res : ResultNtf) (winner : Uid) (l' : Logic) : Prop :=
  res.winner = winner ∧ match a with
  | .leave _ => l.started = true ∧ l'.order = [winner]
  | .timeout => winner = leader l ∧ l'.players = l.players
  | _ => winner = ""

/-- What can come of choosing a card: nothing yet, a round, or the last round. -/
inductive Resolves (s : Room) : Room → Prop
  | waits : Resolves s s
  | round : Resolves s (resolveRound s)
  | last : Resolves s (finish (resolveRound s) "" false)

theorem resolves_tryResolveRound (s : Room) : Resolves s (tryResolveRound s) := by
  rw [tryResolveRound]
  split
  · exact .waits
  split
  · exact .waits
  dsimp only
  split
  · exact .last
  · exact .round

theorem members_finish (h : Shut s) (winner : Uid) (timeout : Bool) :
    (finish s winner timeout).members = [] := by
  have hsettled : Shut ((s.setLogic { s.logic with finished := true }).emit
    (settlement ⟨winner, s.logic.round, s.logic.scores, timeout⟩ winner)) := h
  rw [finish, Room.close]
  split
  · exact hsettled ‹_›
  · rfl

/-- The game goes on, or is over without a winner, and nobody is left to play for. -/
inductive Plays (s s' : Room) : Prop
  | goesOn (h : Quiet Logic.finished s s') (hopen : s'.logic.finished = false)
  | ends (h : Turn Logic.finished (fun res winner _ => res.winner = winner ∧ winner = "") s s')
      (hempty : s'.members = [])

theorem Plays.turn (h : Plays s s') :
    Turn Logic.finished (fun res winner _ => res.winner = winner ∧ winner = "") s s' := by
  cases h with
  | goesOn h => exact h.turn
  | ends h => exact h

theorem Resolves.plays (hr : Resolves s' s'') (h : Quiet Logic.finished s s') (hs : Shut s)
    (hopen : s'.logic.finished = false) : Plays s s'' := by
  have hround : Quiet Logic.finished s (resolveRound s') := h.told (by rfl) rfl
  cases hr with
  | waits => exact .goesOn h hopen
  | round => exact .goesOn hround hopen
  | last =>
    exact .ends (turn_finish hround hopen fun _ hres => ⟨hres, rfl⟩)
      (members_finish (hround.stays.shut hs) "" false)

theorem turn_onMessage (uid : Uid) (req : Request) (s : Room) (hs : Shut s) :
    Turn Logic.finished (Wins (.message uid req) s.logic) s (onMessage uid req s) := by
  have hrefl : Quiet Logic.finished s s := .refl s
  unfold onMessage
  split
  · split
    · exact hrefl.turn
    rename_i hrunning
    simp only [Bool.or_eq_true, Bool.not_eq_true', not_or, Bool.not_eq_true] at hrunning
    split
    · exact hrefl.turn
    split
    · exact hrefl.turn
    · refine Plays.turn ((resolves_tryResolveRound _).plays (hrefl.setLogic ?_) hs hrunning.2)
      rfl
  · exact hrefl.turn

theorem Plays.autoPlay (hs : Shut s) (h : Plays s s') (uid : Uid) : Plays s (autoPlay s' uid) := by
  rw [CardGame.autoPlay]
  split
  · exact h
  split
  · exact h
  split
  next hoffline =>
    cases h with
    | goesOn h hopen => exact (resolves_tryResolveRound _).plays (h.setLogic (by rfl)) hs hopen
    | ends h hempty =>
      rw [Room.offline, hempty] at hoffline
      cases hoffline
  · exact h

theorem turn_onTick (s : Room) (hs : Shut s) :
    Turn Logic.finished (Wins (.tick ()) s.logic) s (onTick () s) := by
  rw [onTick]
  split
  · exact (Quiet.refl s).turn
  next hrunning =>
    simp only [Bool.or_eq_true, Bool.not_eq_true', not_or, Bool.not_eq_true] at hrunning
    exact (List.foldlRecOn s.logic.order autoPlay (Plays.goesOn (.refl s) hrunning.2)
      fun _ h uid _ => h.autoPlay hs uid).turn

theorem turn_onLeave (uid : Uid) (s : Room) :
    Turn Logic.finished (Wins (.leave uid) s.logic) s (onLeave uid s) := by
  set l := { s.logic with players := s.logic.players.filter (·.uid ≠ uid) } with hl
  have hleft : Quiet Logic.finished s ((s.setLogic l).emit [.memberChange uid false]) :=
    .told (.refl s) (by rfl) rfl
  rw [onLeave]
  dsimp only
  split
  next winner horder =>
    split
    next hend =>
      simp only [Bool.and_eq_true, Bool.not_eq_true'] at hend
      exact turn_finish hleft hend.2 fun _ hres => ⟨hres, hend.1, horder⟩
    · exact hleft.turn
  · exact hleft.turn

theorem turn_onTimeout (s : Room) :
    Turn Logic.finished (Wins .timeout s.logic) s (onTimeout s) := by
  rw [onTimeout]
  split
  · exact (Quiet.refl s).turn
  next hfin =>
    exact turn_finish (.refl s) (Bool.eq_false_iff.mpr hfin) fun _ hres => ⟨hres, rfl, rfl⟩

end Turn

theorem settlesOnce (maxPlayers : ℕ) : (game maxPlayers).SettlesOnce Logic.finished Wins where
  onJoin := quiet_onJoin
  onMessage := turn_onMessage
  tick _ s hs := turn_onTick s hs
  onTimer _ s := (Quiet.refl s).turn
  onLeave := turn_onLeave
  onTimeout := turn_onTimeout
  onDestroy := filter_onDestroy

end CardGame

end RanGame.Games
