import Mathlib.Data.List.Sort
import Mathlib.Algebra.Order.Ring.Int

/-!
# Cards and combinations

A model of `games/doudizhu/cards.go`: the deck, the combinations a play is recognised as, and when
one beats another. The order in which a `range` loop visits a map, and what `sort.Slice` does with
cards of equal rank, are decided by a `Runtime`.
-/

namespace RanGame.Doudizhu

/-! ### The deck -/

/-- A card. Jokers are numbered from zero, any other card has `joker = -1`. -/
structure Card where
  suit : ℤ
  rank : ℤ
  joker : ℤ
  deriving DecidableEq, Repr

/-- The number by which clients name a card. -/
def Card.id (c : Card) : ℤ := if c.joker ≥ 0 then 100 + c.joker else c.suit * 100 + c.rank

/-- The deck as it is built: suit by suit from rank 3 to rank 15, then the jokers. -/
def fullDeck : List Card :=
  ((List.range 4).flatMap fun suit => (List.range 13).map fun r => ⟨suit, r + 3, -1⟩)
    ++ [⟨0, 16, 0⟩, ⟨0, 17, 1⟩]

theorem length_fullDeck : fullDeck.length = 54 := by decide

theorem nodup_id_fullDeck : (fullDeck.map Card.id).Nodup := by decide +kernel

/-! ### What the Go runtime decides -/

/-- How often each rank occurs, as the entries of a map. -/
abbrev RankCounts := List (ℤ × ℕ)

/-- One way for the Go runtime to sort cards and to order the maps of `classify`. -/
structure Runtime where
  sort : List Card → List Card
  sort_perm : ∀ cs, (sort cs).Perm cs
  sort_sorted : ∀ cs, (sort cs).Pairwise fun a b => a.rank ≤ b.rank
  range : ℕ → RankCounts → RankCounts
  range_perm : ∀ k m, (range k m).Perm m

/-- Is the rank of `a` at most that of `b`? -/
def RankLE (a b : Card) : Prop := a.rank ≤ b.rank

instance : DecidableRel RankLE := fun a b => inferInstanceAs (Decidable (a.rank ≤ b.rank))

instance : Std.Total RankLE := ⟨fun a b => le_total a.rank b.rank⟩

instance : IsTrans Card RankLE := ⟨fun _ _ _ => le_trans⟩

/-- A stable sort, and maps in the order their keys were added. -/
def Runtime.plain : Runtime where
  sort := List.insertionSort RankLE
  sort_perm := List.perm_insertionSort RankLE
  sort_sorted := List.pairwise_insertionSort RankLE
  range _ m := m
  range_perm _ _ := .refl _

/-! ### Combinations -/

inductive PlayType
  | invalid
  | single
  | pair
  | triple
  | tripleOne
  | tripleTwo
  | straight
  | plane
  | bomb
  | rocket
  deriving DecidableEq, Repr

/-- `m[r]++` -/
def RankCounts.bump (r : ℤ) : RankCounts → RankCounts
  | [] => [(r, 1)]
  | (r', c) :: m => if r' = r then (r', c + 1) :: m else (r', c) :: bump r m

def rankCounts (cards : List Card) : RankCounts :=
  cards.foldl (fun m c => RankCounts.bump c.rank m) []

/-- `m[r]`, zero if there is no entry. -/
def RankCounts.count (m : RankCounts) (r : ℤ) : ℕ := (m.lookup r).getD 0

def ranksSorted (m : RankCounts) : List ℤ := (m.map Prod.fst).insertionSort (· ≤ ·)

/-- Is every number one more than the one before? -/
def consecutive : List ℤ → Bool
  | a :: b :: rs => b = a + 1 && consecutive (b :: rs)
  | _ => true

def isStraight (m : RankCounts) (n : ℕ) : Bool :=
  let rs := ranksSorted m
  rs.length = n && consecutive rs && rs.getLastD 0 ≤ 14

def allSingles (m : RankCounts) : Bool := m.all fun e => e.2 = 1

def maxRank (m : RankCounts) : ℤ := m.foldl (fun best e => if e.1 > best then e.1 else best) 0

/-- The ranks that occur three times, sorted. -/
def groups (m : RankCounts) : List ℤ := ranksSorted (m.filter fun e => e.2 = 3)

def isPlane (m : RankCounts) (k : ℕ) : Bool :=
  m.all (fun e => e.2 = 3) && (groups m).length = k && 2 ≤ k && (groups m).getLastD 0 ≤ 14 &&
    consecutive (groups m)

def planeMainRank (m : RankCounts) : ℤ := (groups m).getLastD 0

/-- The loop of `classify` over ranks that occur three times or more: the number of other cards
decides, and two have to be a pair. -/
def tripleWith (rt : Runtime) (m : RankCounts) (rest : ℕ) : Option (PlayType × ℤ) :=
  (rt.range 2 m).findSome? fun (r, c) =>
    if c ≥ 3 then
      match rest with
      | 0 => some (.triple, r)
      | 1 => some (.tripleOne, r)
      | 2 => if (rt.range 3 m).any (fun (r₂, c₂) => r₂ ≠ r && c₂ = 2) then some (.tripleTwo, r)
        else none
      | _ => none
    else none

/-- `classify`: the combination of some cards, and the rank it is compared by. -/
def classify (rt : Runtime) (cards : List Card) : PlayType × ℤ :=
  let n := cards.length
  let m := rankCounts cards
  match cards with
  | [] => (.invalid, 0)
  | first :: _ =>
    if n = 2 && m.count 16 = 1 && m.count 17 = 1 then (.rocket, 17)
    else if n = 1 then (.single, first.rank)
    else
      let pair := if n = 2 then (rt.range 0 m).find? (fun e => e.2 = 2) else none
      let bomb := if n = 4 then (rt.range 1 m).find? (fun e => e.2 = 4) else none
      match pair, bomb, (if n ≥ 3 then tripleWith rt m (n - 3) else none) with
      | some (r, _), _, _ => (.pair, r)
      | none, some (r, _), _ => (.bomb, r)
      | none, none, some play => play
      | none, none, none =>
        if n ≥ 5 && (allSingles (rt.range 4 m) && isStraight (rt.range 5 m) n) then
          (.straight, maxRank (rt.range 6 m))
        else if n ≥ 6 && n % 3 = 0 && isPlane (rt.range 7 m) (n / 3) then
          (.plane, planeMainRank (rt.range 8 m))
        else (.invalid, 0)

def mainRankOf (rt : Runtime) (cards : List Card) : ℤ :=
  if cards = [] then 0 else (classify rt cards).2

/-- `canBeat`: does a combination of `newN` cards beat the last one? -/
def canBeat (newType : PlayType) (newMain : ℤ) (newN : ℕ) (lastType : PlayType) (lastMain : ℤ)
    (lastN : ℕ) : Bool :=
  if newType = .rocket then true
  else if lastType = .rocket then false
  else if newType = .bomb then if lastType = .bomb then newMain > lastMain else true
  else if lastType = .bomb then false
  else if newType ≠ lastType ∨ newN ≠ lastN then false
  else newMain > lastMain

/-- The loop of `takeCards`: the IDs still wanted, the cards taken and those kept. -/
def takeLoop : List ℤ → List Card → List ℤ × List Card × List Card
  | want, [] => (want, [], [])
  | want, c :: hand =>
    if c.id ∈ want then
      let (left, taken, kept) := takeLoop (want.filter (· ≠ c.id)) hand
      (left, c :: taken, kept)
    else
      let (left, taken, kept) := takeLoop want hand
      (left, taken, c :: kept)

/-- `takeCards`: the cards with the given IDs and the rest, unless an ID is missing or given twice.
-/
def takeCards (hand : List Card) (ids : List ℤ) : Option (List Card × List Card) :=
  let (left, taken, kept) := takeLoop ids.dedup hand
  if left.length ≠ 0 ∨ taken.length ≠ ids.length then none else some (taken, kept)

theorem perm_takeLoop (want : List ℤ) (hand : List Card) :
    ((takeLoop want hand).2.2 ++ (takeLoop want hand).2.1).Perm hand := by
  induction hand generalizing want with
  | nil => rfl
  | cons c hand ih =>
    rw [takeLoop]
    split
    · exact List.perm_middle.trans ((ih _).cons c)
    · exact (ih _).cons c

/-- **The cards taken and the cards kept are the hand.** -/
theorem perm_of_takeCards {hand : List Card} {ids : List ℤ} {taken kept : List Card}
    (h : takeCards hand ids = some (taken, kept)) : (kept ++ taken).Perm hand := by
  have hperm := perm_takeLoop ids.dedup hand
  obtain ⟨-, ⟨⟩⟩ := Option.ite_none_left_eq_some.mp h
  exact hperm

end RanGame.Doudizhu
