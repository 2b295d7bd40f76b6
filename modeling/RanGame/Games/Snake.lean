import RanGame.Games.Room

/-!
# Snake

A model of `games/snake/logic.go`. The map of snakes and the order in which their players joined are
one list here. A body is never empty, so it is a head and what follows it. The source collects the
heads in maps and walks over these in any order, which is a parameter.
-/

namespace RanGame.Games

namespace SnakeGame

/-! ### State -/

def gridW : ℤ := 15

def gridH : ℤ := 15

structure Point where
  x : ℤ
  y : ℤ
  deriving DecidableEq, Repr

inductive Dir
  | up
  | down
  | left
  | right
  deriving DecidableEq, Repr

/-- The directions as requests number them. -/
def Dir.ofInt : ℤ → Option Dir
  | 1 => some .up
  | 2 => some .down
  | 3 => some .left
  | 4 => some .right
  | _ => none

def Dir.opposite : Dir → Dir
  | .up => .down
  | .down => .up
  | .left => .right
  | .right => .left

def Point.next (p : Point) : Dir → Point
  | .up => { p with y := p.y - 1 }
  | .down => { p with y := p.y + 1 }
  | .left => { p with x := p.x - 1 }
  | .right => { p with x := p.x + 1 }

def Point.outside (p : Point) : Bool := p.x < 0 ∨ p.x ≥ gridW ∨ p.y < 0 ∨ p.y ≥ gridH

/-- `snake`. The body is the head and the tail. -/
structure Snake where
  uid : Uid
  head : Point
  tail : List Point
  dir : Dir
  alive : Bool
  score : ℕ
  deriving DecidableEq, Repr

def Snake.body (s : Snake) : List Point := s.head :: s.tail

def Snake.slide (s : Snake) : Snake :=
  { s with head := s.head.next s.dir, tail := s.body.dropLast }

def Snake.grow (s : Snake) : Snake :=
  { s with head := s.head.next s.dir, tail := s.body, score := s.score + 1 }

def Snake.die (s : Snake) : Snake := { s with alive := false }

/-- `Logic`, with the number of players of its configuration. -/
structure Logic where
  maxPlayers : ℕ
  snakes : List Snake
  food : Point
  started : Bool
  finished : Bool
  tick : ℕ
  seed : BitVec 64
  finalScores : Option (List (Uid × ℕ))
  deriving DecidableEq

structure SnakeState where
  uid : Uid
  body : List Point
  alive : Bool
  score : ℕ
  deriving DecidableEq, Repr

structure StateNtf where
  tick : ℕ
  snakes : List SnakeState
  food : Point
  deriving DecidableEq, Repr

/-- `ResultNtf`. Without a winner the game is a draw. -/
structure ResultNtf where
  winner : Uid
  rounds : ℕ
  deriving DecidableEq, Repr

abbrev Room := Games.Room Logic StateNtf ResultNtf

/-- What a player can ask for: `MoveReq`, or something that is none. -/
inductive Request
  | move (dir : ℤ)
  | other

/-- One way for the Go runtime to order the two maps of `resolveCollisions`. -/
structure Runtime where
  heads : List (Uid × Point) → List (Uid × Point)
  heads_perm : ∀ m, (heads m).Perm m
  cells : List (Point × List Uid) → List (Point × List Uid)
  cells_perm : ∀ m, (cells m).Perm m

def Runtime.plain : Runtime where
  heads m := m
  heads_perm _ := .refl _
  cells m := m
  cells_perm _ := .refl _

namespace Logic

def order (l : Logic) : List Uid := l.snakes.map Snake.uid

def snake (l : Logic) (uid : Uid) : Option Snake := l.snakes.find? (·.uid = uid)

def modify (l : Logic) (uid : Uid) (f : Snake → Snake) : Logic :=
  { l with snakes := l.snakes.map fun s => if s.uid = uid then f s else s }

def aliveSnakes (l : Logic) : ℕ := l.snakes.countP Snake.alive

/-- The last of the snakes that live, or nobody. -/
def survivor (l : Logic) : Uid := ((l.snakes.filter Snake.alive).getLast?.map Snake.uid).getD ""

def scores (l : Logic) : List (Uid × ℕ) := l.snakes.map fun s => (s.uid, s.score)

/-! ### Food -/

def occupied (l : Logic) (p : Point) : Bool := l.snakes.any fun s => p ∈ s.body

end Logic

def next (seed : BitVec 64) : BitVec 64 := seed * 1103515245#64 + 12345#64

/-- The cell that a seed stands for. The remainder has the sign of the shifted seed. -/
def probe (seed : BitVec 64) : Point where
  x := ((seed.sshiftRight 16).toInt.tmod gridW + gridW).tmod gridW
  y := ((seed.sshiftRight 8).toInt.tmod gridH + gridH).tmod gridH

/-- The first of the next `n` cells that is free, and the seed it stands for. -/
def search (occupied : Point → Bool) : ℕ → BitVec 64 → BitVec 64 × Option Point
  | 0, seed => (seed, none)
  | n + 1, seed =>
    if occupied (probe (next seed)) then search occupied n (next seed)
    else (next seed, some (probe (next seed)))

/-- `relocateFood`: if no free cell is found the food stays where it is. -/
def relocateFood (l : Logic) : Logic :=
  let found := search l.occupied (gridW * gridH).toNat (next l.seed + BitVec.ofNat 64 l.tick)
  { l with seed := found.1, food := found.2.getD l.food }

/-! ### Moving -/

def advance (l : Logic) (uid : Uid) : Logic :=
  match l.snake uid with
  | none => l
  | some s =>
    if !s.alive then l
    else if s.head.next s.dir = l.food then relocateFood (l.modify uid Snake.grow)
    else l.modify uid Snake.slide

/-- Is a cell part of a body, other than its head? -/
def occupy (l : Logic) (p : Point) : Bool := l.snakes.any fun s => p ∈ s.tail

/-- `headCell[h] = append(headCell[h], uid)` -/
def addHead (cells : List (Point × List Uid)) (entry : Uid × Point) : List (Point × List Uid) :=
  if cells.any (·.1 = entry.2) then
    cells.map fun c => if c.1 = entry.2 then (c.1, c.2 ++ [entry.1]) else c
  else cells ++ [(entry.2, [entry.1])]

/-- The players whose snakes share the cell of their head with another. -/
def headOn (rt : Runtime) (l : Logic) : List Uid :=
  let heads := (l.snakes.filter Snake.alive).map fun s => (s.uid, s.head)
  let headCell := (rt.heads heads).foldl addHead []
  (rt.cells headCell).flatMap fun c => if c.2.length > 1 then c.2 else []

/-- `resolveCollisions`: heads in one cell first, then walls and bodies, of dead snakes too, so that
the order does not matter. -/
def resolveCollisions (rt : Runtime) (l : Logic) : Logic :=
  let l : Logic :=
    { l with snakes := l.snakes.map fun s => if s.uid ∈ headOn rt l then s.die else s }
  { l with snakes := l.snakes.map fun s =>
      if s.alive && (s.head.outside || occupy l s.head) then s.die else s }

/-! ### Callbacks -/

def stateNtf (l : Logic) : StateNtf where
  tick := l.tick
  snakes := l.snakes.map fun s => ⟨s.uid, s.body, s.alive, s.score⟩
  food := l.food

/-- `OnDestroy`: the scores at the end of the game, or as they are. -/
def onDestroy (l : Logic) : List (Out StateNtf ResultNtf) :=
  (l.finalScores.getD l.scores).map fun entry => .patch entry.1 entry.2

def finish (s : Room) (winner : Uid) : Room :=
  let l := s.logic
  ((s.setLogic { l with finished := true, finalScores := some l.scores }).emit
    (settlement ⟨winner, l.tick⟩ winner)).close onDestroy

/-- The snake of a new player, by the number of those who are there. -/
def newSnake (uid : Uid) : ℕ → Snake
  | 0 => ⟨uid, ⟨3, 7⟩, [⟨2, 7⟩, ⟨1, 7⟩], .right, true, 0⟩
  | 1 => ⟨uid, ⟨11, 7⟩, [⟨12, 7⟩, ⟨13, 7⟩], .left, true, 0⟩
  | _ => ⟨uid, ⟨7, 3⟩, [⟨7, 2⟩, ⟨7, 1⟩], .right, true, 0⟩

/-- `OnJoin`: when the room is full, the game starts. -/
def onJoin (uid : Uid) (s : Room) : Room :=
  let l := s.logic
  let s := (s.setLogic { l with snakes := l.snakes ++ [newSnake uid l.snakes.length] }).emit
    [.memberChange uid true]
  if s.logic.snakes.length ≥ s.logic.maxPlayers then
    s.setLogic (relocateFood { s.logic with started := true })
  else s

/-- `OnMessage`: a snake does not turn back. -/
def onMessage (uid : Uid) (req : Request) (s : Room) : Room :=
  match req, s.logic.snake uid with
  | .move dir, some snake =>
    if !snake.alive || !s.logic.started then s
    else
      match Dir.ofInt dir with
      | none => s
      | some d =>
        if d = snake.dir.opposite then s
        else s.setLogic (s.logic.modify uid fun t => { t with dir := d })
  | _, _ => s

/-- `Tick`: the snakes move, and the game ends when at most one of them is left. -/
def onTick (rt : Runtime) (s : Room) : Room :=
  let l := s.logic
  if !l.started || l.finished then s
  else
    let l := { l with tick := l.tick + 1 }
    let l := resolveCollisions rt (l.order.foldl advance l)
    let s := (s.setLogic l).emit [.broadcast (stateNtf l)]
    if l.aliveSnakes ≤ 1 then finish s l.survivor else s

def onLeave (uid : Uid) (s : Room) : Room :=
  let l := { s.logic with snakes := s.logic.snakes.filter (·.uid ≠ uid) }
  let s := (s.setLogic l).emit [.memberChange uid false]
  if l.started && !l.finished && l.aliveSnakes ≤ 1 then finish s l.survivor else s

/-- The player with the highest score of those with living snakes, the first of several. -/
def leader (l : Logic) : Uid :=
  (l.snakes.foldl (fun (best : ℤ × Uid) s =>
    if s.alive ∧ (s.score : ℤ) > best.1 then (s.score, s.uid) else best) (-1, "")).2

/-- `OnTimeout`. It does not ask whether the game has started. -/
def onTimeout (s : Room) : Room := if s.logic.finished then s else finish s (leader s.logic)

/-- `Module` with a configured number of players. -/
def game (maxPlayers : ℕ) : Game Runtime Request Logic StateNtf ResultNtf where
  maxPlayers
  onJoin
  onMessage
  tick := onTick
  onTimer := id
  onLeave
  onTimeout
  onDestroy

/-- `NewLogic` in a new room. The source leaves the seed at zero. -/
def newGame (maxPlayers : ℕ) (seed : BitVec 64) : Room :=
  newRoom ⟨maxPlayers, [], ⟨0, 0⟩, false, false, 0, seed, none⟩

/-! ### The game is settled once -/

open Games.Room

theorem filter_onDestroy (l : Logic) : (onDestroy l).filter Out.settles = [] := filter_patches _ _ _

@[simp] theorem finished_modify (l : Logic) (uid : Uid) (f : Snake → Snake) :
    (l.modify uid f).finished = l.finished := rfl

@[simp] theorem finished_relocateFood (l : Logic) :
    (relocateFood l).finished = l.finished := rfl

theorem finished_advance (l : Logic) (uid : Uid) : (advance l uid).finished = l.finished := by
  rw [advance]
  split
  · rfl
  · split
    · rfl
    · split <;> simp

theorem finished_foldl_advance (uids : List Uid) (l : Logic) :
    (uids.foldl advance l).finished = l.finished := by
  induction uids generalizing l with
  | nil => rfl
  | cons uid uids ih => rw [List.foldl_cons, ih, finished_advance]

theorem turn_finish {s s' : Room} (h : Quiet Logic.finished s s')
    (hfin : s'.logic.finished = false) {W : ResultNtf → Uid → Logic → Prop} {winner : Uid}
    (hw : ∀ res finalScores, W res winner { s'.logic with finished := true, finalScores }) :
    Turn Logic.finished W s (finish s' winner) :=
  (h.settle hfin rfl (hw _ _)).close filter_onDestroy

theorem quiet_onJoin (uid : Uid) (s : Room) : Quiet Logic.finished s (onJoin uid s) := by
  rw [onJoin]
  dsimp only
  split
  · exact .setLogic (.told (.refl s) (by rfl) rfl) (by rfl)
  · exact .told (.refl s) (by rfl) rfl

theorem quiet_onMessage (uid : Uid) (req : Request) (s : Room) :
    Quiet Logic.finished s (onMessage uid req s) := by
  have hrefl : Quiet Logic.finished s s := .refl s
  unfold onMessage
  split
  · split
    · exact hrefl
    · split
      · exact hrefl
      · split
        · exact hrefl
        · exact hrefl.setLogic (by rfl)
  · exact hrefl

theorem leader_mem (l : Logic) : leader l = "" ∨ leader l ∈ l.order := by
  refine List.foldlRecOn l.snakes _ (motive := fun best : ℤ × Uid => best.2 = "" ∨
    best.2 ∈ l.order) (.inl rfl) fun best hbest t ht => ?_
  split
  · exact .inr (List.mem_map_of_mem ht)
  · exact hbest

theorem survivor_mem (l : Logic) : l.survivor = "" ∨ l.survivor ∈ l.order := by
  rw [Logic.survivor]
  cases hlast : (l.snakes.filter Snake.alive).getLast? with
  | none => exact .inl rfl
  | some t =>
    have ht := List.mem_of_getLast? hlast
    exact .inr (List.mem_map_of_mem (List.mem_filter.mp ht).1)

/-- The winner, if any, plays, and the game had started, unless the time is up. -/
def Wins (a : Act Runtime Request) (l : Logic) (_ : ResultNtf) (winner : Uid) (l' : Logic) : Prop :=
  (winner = "" ∨ winner ∈ l'.order) ∧ (l.started = true ∨ a = .timeout)

theorem turn_onTick (rt : Runtime) (s : Room) :
    Turn Logic.finished (Wins (.tick rt) s.logic) s (onTick rt s) := by
  rw [onTick]
  dsimp only
  split
  · exact (Quiet.refl s).turn
  next hrunning =>
    simp only [Bool.or_eq_true, Bool.not_eq_true', not_or, Bool.not_eq_true,
      Bool.not_eq_false] at hrunning
    set l := resolveCollisions rt (({ s.logic with tick := s.logic.tick + 1 }).order.foldl advance
        { s.logic with tick := s.logic.tick + 1 }) with hl
    have hfin : l.finished = s.logic.finished := finished_foldl_advance _ _
    have hmoved : Quiet Logic.finished s ((s.setLogic l).emit [.broadcast (stateNtf l)]) :=
      .told (.refl s) hfin rfl
    split
    · exact turn_finish hmoved (hfin.trans hrunning.2) fun _ _ => ⟨survivor_mem l, .inl hrunning.1⟩
    · exact hmoved.turn

theorem turn_onLeave (uid : Uid) (s : Room) :
    Turn Logic.finished (Wins (.leave uid) s.logic) s (onLeave uid s) := by
  set l := { s.logic with snakes := s.logic.snakes.filter (·.uid ≠ uid) } with hl
  have hleft : Quiet Logic.finished s ((s.setLogic l).emit [.memberChange uid false]) :=
    .told (.refl s) (by rfl) rfl
  change Turn _ _ s (if _ then _ else _)
  split
  next hend =>
    simp only [Bool.and_eq_true, Bool.not_eq_true'] at hend
    exact turn_finish hleft hend.1.2 fun _ _ => ⟨survivor_mem l, .inl hend.1.1⟩
  · exact hleft.turn

theorem turn_onTimeout (s : Room) :
    Turn Logic.finished (Wins .timeout s.logic) s (onTimeout s) := by
  rw [onTimeout]
  split
  · exact (Quiet.refl s).turn
  next hfin =>
    exact turn_finish (.refl s) (Bool.eq_false_iff.mpr hfin) fun _ _ => ⟨leader_mem _, .inr rfl⟩

theorem settlesOnce (maxPlayers : ℕ) : (game maxPlayers).SettlesOnce Logic.finished Wins where
  onJoin := quiet_onJoin
  onMessage uid req s _ := (quiet_onMessage uid req s).turn
  tick rt s _ := turn_onTick rt s
  onTimer _ s := (Quiet.refl s).turn
  onLeave := turn_onLeave
  onTimeout := turn_onTimeout
  onDestroy := filter_onDestroy

end SnakeGame

end RanGame.Games
