import RanGame.Doudizhu.Cards
import RanGame.Lib.Machine
import RanGame.Lib.Piles

/-!
# A doudizhu room

A model of `games/doudizhu/logic.go` with the part of `internal/room/room.go` it runs in: who is in
the room and who is online, the turn timers, and the game from the first join to its end.

Handling one envelope can be a long chain of calls, each the last thing its caller does. So a call
is a step of its own: it is left in `pending`, and `cont` performs it. The next envelope is only
taken when nothing is pending, while players go on- and offline, and timers expire, at any moment. A
panic ends the chain of calls and is remembered.
-/

namespace RanGame.Doudizhu

open Function

abbrev Uid := String

/-! ### Messages -/

inductive Stage
  | waiting
  | bidding
  | playing
  | finished
  deriving DecidableEq, Repr

/-- `PlayedNtf`: somebody played cards, or passed. -/
structure PlayedNtf where
  uid : Uid
  cards : List Card
  type : PlayType
  pass : Bool
  deriving DecidableEq, Repr

structure ResultNtf where
  landlord : Uid
  farmers : List Uid
  landlordWin : Bool
  baseScore : ℤ
  deriving DecidableEq, Repr

/-- What the room tells its players. Deadlines are left out. -/
inductive Msg
  | memberChange (uid : Uid) (joined : Bool)
  | deal (hand landlord3 : List Card)
  | stage (stage : Stage)
  | callNtf (uid : Uid) (score : ℤ) (passed : Bool)
  | played (ntf : PlayedNtf)
  | turn (cur landlord : Uid) (baseScore : ℤ)
  | result (res : ResultNtf)
  deriving DecidableEq, Repr

/-- What leaves the room: a message, a payment, a stored result, a note in a profile. -/
inductive Out
  | broadcast (msg : Msg)
  | push (uid : Uid) (msg : Msg)
  | incrBy (uid : Uid) (gold : ℤ)
  | setSync (res : ResultNtf)
  | patch (uid : Uid)
  deriving DecidableEq, Repr

/-! ### State -/

/-- `Logic`. The map of players is its keys, as they were added, and their hands. -/
structure Logic where
  players : List Uid
  hand : Uid → List Card
  order : List Uid
  stage : Stage
  seed : BitVec 64
  landlord3 : List Card
  redeals : ℕ
  started : Bool
  finished : Bool
  bidIndex : ℕ
  maxScore : ℤ
  maxBidder : Uid
  bidCount : ℕ
  landlord : Uid
  cur : ℤ
  lastPlayed : Option PlayedNtf
  baseScore : ℤ
  passCount : ℕ
  turnTimer : Option ℕ

/-- The functions that end in calls of one another, with their arguments. -/
inductive Call
  | startBidding
  | askBid
  | applyBid (uid : Uid) (score : ℤ)
  | finishBidding
  | nextTurn (freeLead : Bool)
  | autoPlay (uid : Uid) (freeLead : Bool)
  | applyPlay (uid : Uid) (ids : List ℤ)
  deriving DecidableEq, Repr

/-- The life of a timer. A callback in the mailbox cannot be cancelled. -/
inductive TimerState
  | armed
  | cancelled
  | posted
  | done
  deriving DecidableEq, Repr

/-- A turn timer, armed for a player. -/
structure Timer where
  uid : Uid
  state : TimerState
  deriving DecidableEq, Repr

/-- The room: its members as they joined, who is online, every timer ever armed, the game, the call
to be performed next, what was sent, and whether a handler panicked. -/
structure Room where
  members : List Uid
  closing : Bool
  online : Uid → Bool
  timers : List Timer
  logic : Logic
  pending : Option Call
  log : List Out
  panicked : Bool

/-! ### Changes to the game -/

namespace Logic

/-- `order[cur]`, for an index that may be negative. -/
def seat (l : Logic) : Option Uid := if l.cur < 0 then none else l.order[l.cur.toNat]?

def indexOf (l : Logic) (uid : Uid) : ℤ := if uid ∈ l.order then l.order.idxOf uid else -1

/-- `currentUID`: whose turn it is, the empty ID outside of bidding and play. -/
def currentUID (l : Logic) : Option Uid :=
  match l.stage with
  | .bidding => l.order[l.bidIndex]?
  | .playing => l.seat
  | .waiting | .finished => some ""

def sit (l : Logic) (uid : Uid) : Logic :=
  { l with players := if uid ∈ l.players then l.players else l.players ++ [uid]
           hand := update l.hand uid [], order := l.order ++ [uid] }

def rise (l : Logic) (uid : Uid) : Logic :=
  { l with players := l.players.erase uid, order := l.order.erase uid }

def setHand (l : Logic) (uid : Uid) (cards : List Card) : Logic :=
  { l with hand := update l.hand uid cards }

/-- A round of bidding begins. -/
def openBidding (l : Logic) : Logic :=
  { l with stage := .bidding, bidIndex := 0, maxScore := 0, maxBidder := "", bidCount := 0 }

/-- The score a bid counts as: none if out of range or not above the highest bid. -/
def bidScore (l : Logic) (score : ℤ) : ℤ :=
  let score := if score < 0 ∨ score > 3 then 0 else score
  if score > 0 ∧ score ≤ l.maxScore then 0 else score

def countBid (l : Logic) (uid : Uid) (score : ℤ) : Logic :=
  { l with bidCount := l.bidCount + 1
           maxScore := if score > l.maxScore then score else l.maxScore
           maxBidder := if score > l.maxScore then uid else l.maxBidder }

def redeal (l : Logic) : Logic := { l with redeals := l.redeals + 1 }

/-- A player who has to be the landlord, for the lowest score. -/
def forceBid (l : Logic) (uid : Uid) : Logic := { l with maxBidder := uid, maxScore := 1 }

def nextBidder (l : Logic) : Logic := { l with bidIndex := (l.bidIndex + 1) % l.order.length }

def crown (l : Logic) : Logic := { l with landlord := l.maxBidder, baseScore := l.maxScore }

def beginPlay (l : Logic) : Logic :=
  { l with stage := .playing
           cur := if l.landlord ∈ l.order then l.order.idxOf l.landlord else l.cur
           lastPlayed := none, passCount := 0 }

/-- A free lead: there is nothing to beat. -/
def freeLead (l : Logic) : Logic := { l with lastPlayed := none, passCount := 0 }

def countPass (l : Logic) : Logic := { l with passCount := l.passCount + 1 }

/-- There is something new to beat. -/
def setLast (l : Logic) (ntf : PlayedNtf) : Logic :=
  { l with lastPlayed := some ntf, passCount := 0 }

def turnTo (l : Logic) (uid : Uid) : Logic := { l with cur := l.indexOf uid }

def nextSeat (l : Logic) : Logic := { l with cur := (l.cur + 1) % l.order.length }

end Logic

namespace Room

/-! ### The room's services -/

def setLogic (s : Room) (l : Logic) : Room := { s with logic := l }

def emit (s : Room) (outs : List Out) : Room := { s with log := s.log ++ outs }

def broadcast (s : Room) (msg : Msg) : Room := s.emit [.broadcast msg]

/-- `Member(uid)`, then `Push` if there is such a member. -/
def push (s : Room) (uid : Uid) (msg : Msg) : Room :=
  s.emit (if uid ∈ s.members then [.push uid msg] else [])

/-- `m, ok := Member(uid); ok && !m.Online()` -/
def offline (s : Room) (uid : Uid) : Bool := uid ∈ s.members && !s.online uid

/-- `Handle.Cancel`, of no effect unless the timer is still running. -/
def cancel (timers : List Timer) : Option ℕ → List Timer
  | none => timers
  | some k =>
    timers.modify k fun t => if t.state = .armed then { t with state := .cancelled } else t

def clearTurnTimer (s : Room) : Room :=
  { s with
    timers := cancel s.timers s.logic.turnTimer
    logic := { s.logic with turnTimer := none } }

def setTurnTimer (s : Room) (uid : Uid) : Room :=
  { s with
    timers := cancel s.timers s.logic.turnTimer ++ [⟨uid, .armed⟩]
    logic := { s.logic with turnTimer := some s.timers.length } }

def goto (s : Room) (c : Call) : Room := { s with pending := some c }

def panic (s : Room) : Room := { s with panicked := true }

/-- `doClose`: `OnDestroy` notes the game in the profiles, then the members go. -/
def close (s : Room) : Room :=
  if s.closing then s
  else { s with closing := true, members := [] }.emit (s.logic.players.map .patch)

/-- The next index of the shuffle: the upper bits of the next seed modulo the bound. -/
def draw (seed : BitVec 64) (bound : ℕ) : ℕ × BitVec 64 :=
  let seed := seed * 1103515245#64 + 12345#64
  ((seed.sshiftRight 16).toNat % bound, seed)

/-- The deck after shuffling, and the seed for the next one. -/
def shuffled (seed : BitVec 64) : BitVec 64 × Array Card :=
  Piles.shuffle draw (fullDeck.length - 1) seed fullDeck.toArray

/-- The hands and the last three cards of a shuffled deck: 17 cards to each of three players in
turn. -/
def dealt (rt : Runtime) (l : Logic) : Logic :=
  let deck := (shuffled l.seed).2.toList
  let k := l.order.length
  let hands := Piles.roundRobin k (deck.take (17 * k)) 0 fun _ => []
  { l with
    seed := (shuffled l.seed).1
    hand := Piles.assign l.order 0 (fun i => rt.sort (hands i)) l.hand
    landlord3 := (deck.drop (17 * k)).take 3 }

/-- `deal`: every player is told their own hand. -/
def deal (rt : Runtime) (s : Room) : Room :=
  let l := dealt rt s.logic
  (s.setLogic l).emit <| l.order.flatMap fun uid =>
    if uid ∈ s.members then [.push uid (.deal (l.hand uid) [])] else []

/-- The payments for a result: what the landlord wins the farmers lose, or the reverse. -/
def payments (res : ResultNtf) : List Out :=
  let sign : ℤ := if res.landlordWin then 1 else -1
  .incrBy res.landlord (sign * (2 * res.baseScore)) ::
    res.farmers.map fun f => .incrBy f (-sign * res.baseScore)

/-- `ResultNtf` of the game as it stands, with the farmers as they joined. -/
def result (l : Logic) (landlordWin : Bool) : ResultNtf :=
  ⟨l.landlord, l.players.filter (· ≠ l.landlord), landlordWin, l.baseScore⟩

/-- `finish`: tell the result, pay and store it, close the room. -/
def finish (s : Room) (landlordWin : Bool) : Room :=
  if s.logic.finished then s
  else
    let res := result s.logic landlordWin
    let s := (s.setLogic { s.logic with finished := true }).clearTurnTimer.broadcast (.result res)
    (s.emit (payments res ++ [.setSync res])).close

/-! ### Bidding -/

def startBidding (s : Room) : Room :=
  ((s.setLogic s.logic.openBidding).broadcast (.stage .bidding)).goto .askBid

/-- `askBid`: whoever is offline does not bid. -/
def askBid (s : Room) : Room :=
  match s.logic.order[s.logic.bidIndex]? with
  | none => s.panic
  | some uid =>
    let s := s.broadcast (.turn uid "" 0)
    if s.offline uid then s.goto (.applyBid uid 0) else s.setTurnTimer uid

/-- `applyBid`: a bid of three, or the last one of the round, ends the bidding. -/
def applyBid (s : Room) (uid : Uid) (score : ℤ) : Room :=
  let score := s.logic.bidScore score
  let s := s.broadcast (.callNtf uid score (score = 0))
  let s := (s.setLogic (s.logic.countBid uid score)).clearTurnTimer
  if s.logic.maxScore = 3 ∨ s.logic.bidCount ≥ s.logic.order.length then s.goto .finishBidding
  else (s.setLogic s.logic.nextBidder).goto .askBid

/-- The second half of `finishBidding`: the landlord takes the three cards and leads. -/
def pickUp (rt : Runtime) (s : Room) : Room :=
  let s := s.setLogic s.logic.crown
  let l := s.logic
  if l.landlord ∉ l.players then s.panic
  else
    let hand := rt.sort (l.hand l.landlord ++ l.landlord3)
    let s := (s.setLogic (l.setHand l.landlord hand)).push l.landlord (.deal hand l.landlord3)
    ((s.setLogic s.logic.beginPlay).broadcast (.stage .playing)).goto (.nextTurn false)

/-- `finishBidding`: if nobody bid, deal again, twice at most; then the first player is landlord. -/
def finishBidding (rt : Runtime) (s : Room) : Room :=
  if s.logic.maxScore = 0 ∨ s.logic.maxBidder = "" then
    if s.logic.redeals < 2 then
      ((s.setLogic s.logic.redeal).deal rt).goto .startBidding
    else
      match s.logic.order[0]? with
      | none => s.panic
      | some uid => (s.setLogic (s.logic.forceBid uid)).pickUp rt
  else s.pickUp rt

/-! ### Playing -/

def nextTurn (s : Room) (freeLead : Bool) : Room :=
  match s.logic.seat with
  | none => s.panic
  | some uid =>
    let s := s.broadcast (.turn uid s.logic.landlord s.logic.baseScore)
    let s := if freeLead then s.setLogic s.logic.freeLead else s
    if s.offline uid then s.goto (.autoPlay uid freeLead) else s.setTurnTimer uid

/-- `autoPlay`: pass, or lead the first card of the hand. -/
def autoPlay (s : Room) (uid : Uid) (freeLead : Bool) : Room :=
  if freeLead then
    if uid ∉ s.logic.players then s.panic
    else s.goto (.applyPlay uid ((s.logic.hand uid).head?.toList.map Card.id))
  else s.goto (.applyPlay uid [])

/-- The next player in turn. A game without players has nobody to turn to. -/
def advance (s : Room) : Room :=
  if s.logic.order.length = 0 then s.panic
  else (s.setLogic s.logic.nextSeat).goto (.nextTurn false)

/-- `applyPlay` without cards. After two passes the last player to play cards leads. -/
def applyPass (s : Room) (uid : Uid) : Room :=
  match s.logic.lastPlayed with
  | none => s
  | some last =>
    let s := (s.setLogic s.logic.countPass).broadcast (.played ⟨uid, [], .invalid, true⟩)
    if s.logic.passCount ≥ 2 then
      (s.setLogic (s.logic.turnTo last.uid)).goto (.nextTurn true)
    else s.advance

/-- May these cards be played: are they a combination, and do they beat the last one? -/
def accepts (rt : Runtime) (l : Logic) (uid : Uid) (selected : List Card) : Bool :=
  let (typ, mainRank) := classify rt selected
  typ ≠ .invalid &&
    match l.lastPlayed with
    | none => true
    | some last =>
      last.uid = uid || canBeat typ mainRank selected.length last.type (mainRankOf rt last.cards)
        last.cards.length

/-- `applyPlay`. Cards that may not be played go back into the hand. -/
def applyPlay (rt : Runtime) (s : Room) (uid : Uid) (ids : List ℤ) : Room :=
  if uid ∉ s.logic.players then s
  else if ids = [] then s.applyPass uid
  else
    match takeCards (s.logic.hand uid) ids with
    | none => s
    | some (selected, kept) =>
      if accepts rt s.logic uid selected then
        let ntf : PlayedNtf := ⟨uid, selected, (classify rt selected).1, false⟩
        let s := (s.setLogic ((s.logic.setHand uid kept).setLast ntf)).broadcast (.played ntf)
        if kept = [] then s.finish (uid = s.logic.landlord) else s.advance
      else s.setLogic (s.logic.setHand uid (rt.sort (kept ++ selected)))

def exec (rt : Runtime) (s : Room) : Call → Room
  | .startBidding => s.startBidding
  | .askBid => s.askBid
  | .applyBid uid score => s.applyBid uid score
  | .finishBidding => s.finishBidding rt
  | .nextTurn freeLead => s.nextTurn freeLead
  | .autoPlay uid freeLead => s.autoPlay uid freeLead
  | .applyPlay uid ids => s.applyPlay rt uid ids

/-! ### Envelopes -/

/-- `handleJoin` and `OnJoin`: the third player starts the game. -/
def join (rt : Runtime) (s : Room) (uid : Uid) : Room :=
  if s.closing ∨ uid ∈ s.members ∨ s.members.length ≥ 3 then s
  else
    let s := { s with members := s.members ++ [uid] }.setLogic (s.logic.sit uid)
    let s := s.broadcast (.memberChange uid true)
    if s.logic.players.length ≥ 3 ∧ s.logic.started = false then
      ((s.setLogic { s.logic with started := true }).deal rt).goto .startBidding
    else s

/-- `handleLeave` and `OnLeave`: leaving a running game ends it. -/
def leave (s : Room) (uid : Uid) : Room :=
  if s.closing ∨ uid ∉ s.members then s
  else
    let s := { s with members := s.members.erase uid }.setLogic (s.logic.rise uid)
    let s := s.broadcast (.memberChange uid false)
    let s := if s.logic.started && !s.logic.finished then s.finish false else s
    if s.members = [] then s.close else s

inductive Request
  | call (score : ℤ)
  | play (ids : List ℤ)
  | other

/-- `OnMessage`: only the player whose turn it is may bid or play. -/
def message (s : Room) (uid : Uid) (req : Request) : Room :=
  if uid ∉ s.members ∨ !s.logic.started ∨ s.logic.finished then s
  else
    match s.logic.currentUID with
    | none => s.panic
    | some cur =>
      if uid ≠ cur then s
      else
        match req, s.logic.stage with
        | .call score, .bidding => s.goto (.applyBid uid score)
        | .play ids, .playing => s.goto (.applyPlay uid ids)
        | _, _ => s

/-- Act for a player whose time is up, or who is offline. -/
def takeOver (s : Room) (uid : Uid) : Room :=
  match s.logic.stage with
  | .bidding => s.goto (.applyBid uid 0)
  | .playing => s.goto (.autoPlay uid s.logic.lastPlayed.isNone)
  | .waiting | .finished => s

/-- The callback of a turn timer for `uid`, which may come after the game. -/
def timeUp (s : Room) (uid : Uid) : Room :=
  match s.logic.currentUID with
  | none => s.panic
  | some cur => if cur = uid then s.takeOver uid else s

def tick (s : Room) : Room :=
  if !s.logic.started ∨ s.logic.finished then s
  else
    match s.logic.currentUID with
    | none => s.panic
    | some cur =>
      if cur ≠ "" ∧ s.offline cur ∧ s.logic.turnTimer = none then s.takeOver cur else s

/-- `OnTimeout`: a game in play is decided by the cards left, and the room is closed. -/
def timeout (s : Room) : Room :=
  let l := s.logic
  if l.finished ∨ l.stage ≠ .playing then s.close
  else if l.landlord ∉ l.players then s.panic
  else
    let farmers := l.players.filter (· ≠ l.landlord)
    let fewest := farmers.foldl (fun best f => min best (l.hand f).length) (2 ^ 30)
    (s.finish ((l.hand l.landlord).length ≤ fewest)).close

end Room

/-- What can happen to a room: the first three at any moment, the others from the mailbox. -/
inductive Act
  | cont
  | setOnline (uid : Uid) (online : Bool)
  | expire (k : ℕ)
  | fire (k : ℕ)
  | join (uid : Uid)
  | leave (uid : Uid)
  | message (uid : Uid) (req : Room.Request)
  | tick
  | timeout

namespace Room

def markTimer (s : Room) (k : ℕ) (state : TimerState) : Room :=
  { s with timers := s.timers.modify k fun t => { t with state } }

/-- One step of a room. The mailbox waits while a call is pending. -/
def step (s : Room) (a : Runtime × Act) : Option Room :=
  match a.2, s.pending with
  | .cont, some c => some ({ s with pending := none }.exec a.1 c)
  | .setOnline uid online, _ => some { s with online := update s.online uid online }
  | .expire k, _ =>
    match s.timers[k]? with
    | some ⟨_, .armed⟩ => some (s.markTimer k .posted)
    | _ => none
  | .fire k, none =>
    match s.timers[k]? with
    | some ⟨uid, .posted⟩ => some ((s.markTimer k .done).timeUp uid)
    | _ => none
  | .join uid, none => some (s.join a.1 uid)
  | .leave uid, none => some (s.leave uid)
  | .message uid req, none => some (s.message uid req)
  | .tick, none => some s.tick
  | .timeout, none => some s.timeout
  | _, _ => none

end Room

/-- `NewLogic` in a new room, with a seed for the shuffle. -/
def newRoom (seed : BitVec 64) : Room where
  members := []
  closing := false
  online _ := true
  timers := []
  pending := none
  log := []
  panicked := false
  logic :=
    { players := [], hand := fun _ => [], order := [], stage := .waiting, seed, landlord3 := []
      redeals := 0, started := false, finished := false, bidIndex := 0, maxScore := 0
      maxBidder := "", bidCount := 0, landlord := "", cur := 0, lastPlayed := none
      baseScore := 0, passCount := 0, turnTimer := none }

end RanGame.Doudizhu
