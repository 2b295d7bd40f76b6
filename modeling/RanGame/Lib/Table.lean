import RanGame.Lib.Piles

/-!
# A table of cards

A card game as far as its cards go: the players' hands, a pile that has not been handed out yet, and
the cards that have been played. The deck is dealt when the last player sits down; after that cards
move between these places, or the whole deck is dealt again.
-/

namespace RanGame

open Function Multiset

/-- The places cards can be in. -/
structure Table (ι α : Type*) where
  seats : List ι
  hand : ι → List α
  kitty : List α
  played : List α

namespace Table

variable {ι α : Type*}

def cards (t : Table ι α) : Multiset α := Piles.total t.seats t.hand + t.kitty + t.played

variable [DecidableEq ι]

/-- What can happen to the cards of a game for `n` players, with the given deck. -/
inductive Move (n : ℕ) (deck : Multiset α) : Table ι α → Table ι α → Prop
  /-- Somebody sits down, without cards; more are to come. -/
  | sit (t : Table ι α) (i : ι) (hi : i ∉ t.seats) (hn : t.seats.length + 1 ≠ n) :
    Move n deck t { t with seats := t.seats ++ [i], hand := update t.hand i [] }
  /-- The last player sits down, and the deck is dealt out. -/
  | opening (t : Table ι α) (i : ι) (hi : i ∉ t.seats) (hand : ι → List α) (kitty : List α)
    (h : Piles.total (t.seats ++ [i]) hand + kitty = deck) :
    Move n deck t { seats := t.seats ++ [i], hand, kitty, played := [] }
  | deal (t : Table ι α) (hand : ι → List α) (kitty : List α)
    (h : Piles.total t.seats hand + kitty = deck) :
    Move n deck t { t with hand, kitty, played := [] }
  /-- Somebody puts their hand in order. -/
  | reorder (t : Table ι α) (i : ι) (hi : i ∈ t.seats) (cs : List α) (h : cs.Perm (t.hand i)) :
    Move n deck t { t with hand := update t.hand i cs }
  | pickUp (t : Table ι α) (i : ι) (hi : i ∈ t.seats) (cs : List α)
    (h : cs.Perm (t.hand i ++ t.kitty)) :
    Move n deck t { t with hand := update t.hand i cs, kitty := [] }
  | play (t : Table ι α) (i : ι) (hi : i ∈ t.seats) (taken kept : List α)
    (h : (kept ++ taken).Perm (t.hand i)) :
    Move n deck t { t with hand := update t.hand i kept, played := t.played ++ taken }

/-- Any number of moves. -/
abbrev Moves (n : ℕ) (deck : Multiset α) : Table ι α → Table ι α → Prop :=
  Relation.ReflTransGen (Move n deck)

variable {n : ℕ} {deck : Multiset α} {t t' : Table ι α}

theorem nodup_of_move (h : Move n deck t t') (hnodup : t.seats.Nodup) : t'.seats.Nodup := by
  have hconcat : ∀ i ∉ t.seats, (t.seats ++ [i]).Nodup := by
    intro i hi
    rw [← List.concat_eq_append]
    exact hnodup.concat hi
  cases h with
  | sit i hi | opening i hi => exact hconcat i hi
  | _ => exact hnodup

theorem cards_pickUp (hnodup : t.seats.Nodup) {i : ι} (hi : i ∈ t.seats) {cs : List α}
    (h : cs.Perm (t.hand i ++ t.kitty)) :
    { t with hand := update t.hand i cs, kitty := [] }.cards = t.cards := by
  have hupdate := Piles.total_update hnodup hi t.hand cs
  rw [coe_eq_coe.mpr h, ← coe_add, ← add_assoc,
    add_right_comm (Piles.total t.seats t.hand)] at hupdate
  simp only [cards]
  rw [add_right_cancel hupdate, coe_nil, add_zero]

theorem cards_play (hnodup : t.seats.Nodup) {i : ι} (hi : i ∈ t.seats) {taken kept : List α}
    (h : (kept ++ taken).Perm (t.hand i)) :
    { t with hand := update t.hand i kept, played := t.played ++ taken }.cards = t.cards := by
  have hupdate := Piles.total_update hnodup hi t.hand kept
  rw [← coe_eq_coe.mpr h, ← coe_add, add_comm (kept : Multiset α),
    ← add_assoc] at hupdate
  simp only [cards]
  rw [← add_right_cancel hupdate, ← coe_add]
  abel

/-- A move on a full table keeps the deck there, and a table that becomes full gets it. -/
theorem cards_of_move (h : Move n deck t t') (hnodup : t.seats.Nodup)
    (hcards : t.seats.length = n → t.cards = deck) (hfull : t'.seats.length = n) :
    t'.cards = deck := by
  cases h with
  | sit i hi hn => exact absurd (by simpa using hfull) hn
  | opening i hi hand kitty h | deal hand kitty h => simp [cards, h]
  | reorder i hi cs h =>
    rw [← hcards hfull]
    simp only [cards]
    rw [Piles.total_update_perm hnodup hi h]
  | pickUp i hi cs h => rw [cards_pickUp hnodup hi h, hcards hfull]
  | play i hi taken kept h => rw [cards_play hnodup hi h, hcards hfull]

/-- **A full table holds the deck**, whatever moves are made. -/
theorem cards_of_moves (h : Moves n deck t t') (hnodup : t.seats.Nodup)
    (hcards : t.seats.length = n → t.cards = deck) (hfull : t'.seats.length = n) :
    t'.cards = deck := by
  suffices hboth : t'.seats.Nodup ∧ (t'.seats.length = n → t'.cards = deck) from hboth.2 hfull
  clear hfull
  induction h with
  | refl => exact ⟨hnodup, hcards⟩
  | tail _ hmove ih => exact ⟨nodup_of_move hmove ih.1, cards_of_move hmove ih.1 ih.2⟩

end Table

end RanGame
