import RanGame.Doudizhu.Seats
import RanGame.Lib.Table

/-!
# No card is lost or made

As long as nobody leaves, the three hands, the landlord's three cards until the landlord has them,
and the cards played since the last deal are exactly the deck. A step of the room is some moves on a
`Table` of cards.
-/

namespace RanGame.Doudizhu

open Machine Piles

/-! ### What was played -/

/-- What a message adds to the cards played since the last deal, which bidding follows. -/
def tally (cards : List Card) : Out → List Card
  | .broadcast (.stage .bidding) => []
  | .broadcast (.played ntf) => cards ++ ntf.cards
  | _ => cards

/-- The cards broadcast as played since the last deal. -/
def playedCards (log : List Out) : List Card := log.foldl tally []

def Out.quiet : Out → Bool
  | .broadcast (.stage .bidding) | .broadcast (.played _) => false
  | _ => true

theorem tally_of_quiet {o : Out} (h : o.quiet = true) (cards : List Card) :
    tally cards o = cards := by
  unfold tally
  split
  · cases h
  · cases h
  · rfl

theorem playedCards_append_of_quiet {outs : List Out} (h : ∀ o ∈ outs, o.quiet = true)
    (log : List Out) : playedCards (log ++ outs) = playedCards log := by
  rw [playedCards, playedCards, List.foldl_append]
  induction outs with
  | nil => rfl
  | cons o outs ih =>
    rw [List.foldl_cons, tally_of_quiet (h o (List.mem_cons_self ..))]
    exact ih fun p hp => h p (List.mem_cons_of_mem _ hp)

theorem playedCards_concat (log : List Out) (o : Out) :
    playedCards (log ++ [o]) = tally (playedCards log) o := by
  rw [playedCards, playedCards, List.foldl_append]
  rfl

/-- The landlord's three cards, until the landlord has them. -/
def Logic.kitty (l : Logic) : List Card := if l.stage = .playing then [] else l.landlord3

namespace Room

open List

def table (s : Room) : Table Uid Card where
  seats := s.logic.order
  hand := s.logic.hand
  kitty := s.logic.kitty
  played := playedCards s.log

/-- Nothing has been played before the play begins. -/
def Fresh (s : Room) : Prop := s.logic.stage ≠ .playing → playedCards s.log = []

/-! ### What leaves the cards alone -/

/-- The cards and the stage are as before. -/
structure Still (s s' : Room) : Prop where
  table : s'.table = s.table
  stage : s'.logic.stage = s.logic.stage

section Still

variable (s : Room)

theorem still_refl : Still s s := ⟨rfl, rfl⟩

theorem Still.trans {s s' s'' : Room} (h : Still s s') (h' : Still s' s'') : Still s s'' :=
  ⟨h'.table.trans h.table, h'.stage.trans h.stage⟩

theorem still_emit {outs : List Out} (h : ∀ o ∈ outs, o.quiet = true) : Still s (s.emit outs) :=
  ⟨by simp only [Room.table, emit, playedCards_append_of_quiet h], rfl⟩

theorem still_broadcast {msg : Msg} (h : (Out.broadcast msg).quiet = true) :
    Still s (s.broadcast msg) :=
  s.still_emit fun o ho => by
    obtain rfl := mem_singleton.mp ho
    exact h

theorem still_push (uid : Uid) (msg : Msg) : Still s (s.push uid msg) := by
  refine s.still_emit fun o ho => ?_
  split at ho
  · obtain rfl := mem_singleton.mp ho
    rfl
  · cases ho

theorem still_goto (c : Call) : Still s (s.goto c) := ⟨rfl, rfl⟩

theorem still_panic : Still s s.panic := ⟨rfl, rfl⟩

theorem still_close : Still s s.close := by
  rw [close]
  split
  · exact s.still_refl
  · have hempty : Still s { s with closing := true, members := [] } := ⟨rfl, rfl⟩
    refine hempty.trans (still_emit _ ?_)
    intro o ho
    obtain ⟨uid, -, rfl⟩ := mem_map.mp ho
    rfl

theorem still_finish (win : Bool) : Still s (s.finish win) := by
  rw [finish]
  split
  · exact s.still_refl
  · have hend : Still s (s.setLogic { s.logic with finished := true }).clearTurnTimer := ⟨rfl, rfl⟩
    refine ((hend.trans (still_broadcast _ rfl)).trans (still_emit _ ?_)).trans (still_close _)
    intro o ho
    rcases mem_append.mp ho with ho | ho
    · rcases mem_cons.mp ho with rfl | ho
      · rfl
      · obtain ⟨uid, -, rfl⟩ := mem_map.mp ho
        rfl
    · obtain rfl := mem_singleton.mp ho
      rfl

theorem still_turned (uid : Uid) (freeLead : Bool) : Still s (s.turned uid freeLead) := by
  have hlead : Still s (s.setLogic (if freeLead then s.logic.freeLead else s.logic)) := by
    cases freeLead <;> exact ⟨rfl, rfl⟩
  exact hlead.trans (still_broadcast _ rfl)

/-- A pass is broadcast as a play of no cards. -/
theorem still_passed (uid : Uid) : Still s (s.passed uid) := by
  refine ⟨?_, rfl⟩
  simp only [Room.table, passed, broadcast, emit, setLogic, playedCards_concat, tally, append_nil]
  rfl

theorem Prompts.still {s s' : Room} (h : Prompts s s') : Still s s' := by
  cases h <;> exact ⟨rfl, rfl⟩

theorem still_timeout : Still s s.timeout := by
  rw [timeout]
  dsimp only
  split
  · exact s.still_close
  · split
    · exact s.still_panic
    · exact (s.still_finish _).trans (still_close _)

end Still

/-! ### What moves cards -/

theorem perm_shuffled (seed : BitVec 64) : (shuffled seed).2.toList.Perm fullDeck :=
  toList_shuffle_perm draw (fullDeck.length - 1) seed fullDeck

/-- **A deal hands out the deck**: 51 cards to the players, and the last three. -/
theorem cards_dealt (rt : Runtime) {l : Logic} (hnodup : l.order.Nodup)
    (hlen : l.order.length = 3) :
    total l.order (dealt rt l).hand + (dealt rt l).landlord3 =
      (fullDeck : Multiset Card) := by
  have hperm := perm_shuffled l.seed
  set deck := (shuffled l.seed).2.toList with hdeck
  have hdrop : (deck.drop 51).take 3 = deck.drop 51 :=
    take_of_length_le (by rw [length_drop, hperm.length_eq, length_fullDeck])
  have hhands : total l.order (dealt rt l).hand = (deck.take 51 : List Card) := by
    simp only [dealt, hlen]
    rw [total_assign hnodup, hlen, ← range_eq_range',
      total_congr fun i _ => rt.sort_perm _, total_roundRobin (Nat.succ_pos 2)]
    simp [hdeck, range_succ]
  have hkitty : (dealt rt l).landlord3 = deck.drop 51 := by
    simp only [dealt, hlen]
    exact hdrop
  rw [hhands, hkitty, Multiset.coe_add, take_append_drop]
  exact Multiset.coe_eq_coe.mpr hperm

/-- The cards went through some moves, and nothing is on the table before the play. -/
structure Carries (s s' : Room) : Prop where
  moves : Table.Moves 3 fullDeck s.table s'.table
  fresh : Fresh s'

section Carries

variable {s s' s'' : Room}

theorem Still.fresh (h : Still s s') (hfresh : Fresh s) : Fresh s' := by
  intro hstage
  rw [h.stage] at hstage
  have hplayed : s'.table.played = s.table.played := by rw [h.table]
  exact hplayed.trans (hfresh hstage)

theorem Still.carries (h : Still s s') (hfresh : Fresh s) : Carries s s' :=
  ⟨h.table ▸ .refl, h.fresh hfresh⟩

theorem Carries.still (h : Carries s s') (h' : Still s' s'') : Carries s s'' :=
  ⟨h'.table ▸ h.moves, h'.fresh h.fresh⟩

theorem Still.then (h : Still s s') (h' : Carries s' s'') : Carries s s'' :=
  ⟨h.table ▸ h'.moves, h'.fresh⟩

theorem table_deal (rt : Runtime) (hstage : s.logic.stage ≠ .playing) (hfresh : Fresh s) :
    (s.deal rt).table =
      { s.table with
        hand := (dealt rt s.logic).hand, kitty := (dealt rt s.logic).landlord3, played := [] } := by
  have hpush : Still (s.setLogic (dealt rt s.logic)) (s.deal rt) := by
    refine still_emit _ fun o ho => ?_
    obtain ⟨uid, -, ho⟩ := mem_flatMap.mp ho
    split at ho
    · obtain rfl := mem_singleton.mp ho
      rfl
    · cases ho
  have hkitty : (dealt rt s.logic).kitty = (dealt rt s.logic).landlord3 := if_neg hstage
  rw [hpush.table]
  simp only [Room.table, setLogic, hkitty, hfresh hstage]
  rfl

theorem carries_deal (rt : Runtime) (hseats : Seats s.logic) (hlen : s.logic.order.length = 3)
    (hstage : s.logic.stage ≠ .playing) (hfresh : Fresh s) : Carries s (s.deal rt) := by
  have htable := table_deal rt hstage hfresh
  refine ⟨.single ?_, fun _ => congrArg Table.played htable⟩
  rw [htable]
  exact .deal s.table _ _ (cards_dealt rt hseats.nodup hlen)

theorem carries_beginPlay (rt : Runtime) (hstage : s.logic.stage = .bidding)
    (hbidder : s.logic.maxBidder ∈ s.logic.order) :
    Carries s (s.setLogic (s.logic.crown.setHand s.logic.maxBidder
      (rt.sort (s.logic.hand s.logic.maxBidder ++ s.logic.landlord3))).beginPlay) := by
  have hkitty : s.table.kitty = s.logic.landlord3 := if_neg (by simp [hstage])
  refine ⟨.single ?_, fun hplay => absurd rfl hplay⟩
  refine Table.Move.pickUp s.table s.logic.maxBidder hbidder _ ?_
  rw [hkitty]
  exact rt.sort_perm _

theorem carries_played (hstage : s.logic.stage = .playing) {uid : Uid} (hmem : uid ∈ s.logic.order)
    (ntf : PlayedNtf) {kept : List Card} (h : (kept ++ ntf.cards).Perm (s.logic.hand uid)) :
    Carries s ((s.setLogic ((s.logic.setHand uid kept).setLast ntf)).broadcast (.played ntf)) := by
  refine ⟨.single ?_, fun hplay => absurd hstage hplay⟩
  simp only [Room.table, broadcast, emit, setLogic, playedCards_concat]
  exact .play s.table uid hmem ntf.cards kept h

/-- **Every call is some moves on the table.** -/
theorem carries_exec (rt : Runtime) (hseats : Seats s.logic) (hfresh : Fresh s) {c : Call}
    (hfits : c.Fits s.logic) : Carries s (s.exec rt c) := by
  have hdoes := does_exec rt s c
  generalize s.exec rt c = s' at hdoes ⊢
  have hstill : Still s s' → Carries s s' := fun h => h.carries hfresh
  cases hdoes with
  | panics hr hlog houts hbad => exact absurd hfits (hbad hseats)
  | opens =>
    have hplayed : playedCards s.startBidding.log = [] := playedCards_concat s.log _
    have hkitty : s.logic.kitty = s.logic.landlord3 := if_neg hfits.2
    have htable : s.startBidding.table = s.table := by
      simp only [Room.table, hplayed, hkitty, hfresh hfits.2]
      rfl
    exact ⟨htable ▸ .refl, fun _ => hplayed⟩
  | asks | skips | bidsLast | bids => exact hstill ((s.still_broadcast rfl).trans ⟨rfl, rfl⟩)
  | redeals =>
    -- the count of deals is no card
    have hredeal : Still s (s.setLogic s.logic.redeal) := ⟨rfl, rfl⟩
    have hstage : s.logic.stage = .bidding := hfits
    have hdeal : Carries (s.setLogic s.logic.redeal) ((s.setLogic s.logic.redeal).deal rt) :=
      carries_deal rt hseats.redeal (hseats.length_eq (by simp [hstage]))
        (by simp [setLogic, Logic.redeal, hstage]) (hredeal.fresh hfresh)
    exact (hredeal.then hdeal).still (still_goto _ _)
  | @picksUp l hl hbidder =>
    have hforced : Still s (s.setLogic l) ∧ l.stage = .bidding ∧ l.maxBidder ∈ l.order := by
      rcases hl with rfl | ⟨uid, hmem, rfl⟩
      · exact ⟨⟨rfl, rfl⟩, hfits, hbidder hseats⟩
      · exact ⟨⟨rfl, rfl⟩, hfits, hmem⟩
    have hbegin := carries_beginPlay (s := s.setLogic l) rt hforced.2.1 hforced.2.2
    exact hforced.1.then (((hbegin.still (still_push _ _ _)).still
      (still_broadcast _ rfl)).still (still_goto _ _))
  | turns | replaces => exact hstill ((s.still_turned _ _).trans ⟨rfl, rfl⟩)
  | leads | follows | nothing => exact hstill ⟨rfl, rfl⟩
  | passesLast | passes => exact hstill ((s.still_passed _).trans ⟨rfl, rfl⟩)
  | wins hids htake =>
    exact (carries_played hfits.1 hfits.2 _ (perm_of_takeCards htake)).still (still_finish _ _)
  | plays hids htake =>
    exact (carries_played hfits.1 hfits.2 _ (perm_of_takeCards htake)).still ⟨rfl, rfl⟩
  | refuses hids htake =>
    -- the cards go back into the hand
    refine ⟨.single ?_, fun hplay => absurd hfits.1 hplay⟩
    exact .reorder s.table _ hfits.2 _ ((rt.sort_perm _).trans (perm_of_takeCards htake))

theorem table_joined (uid : Uid) (b : Bool) : (s.joined uid b).table = { s.table with
        seats := s.table.seats ++ [uid], hand := Function.update s.table.hand uid [] } :=
  (still_broadcast _ rfl).table

theorem fresh_joined (hfresh : Fresh s) (uid : Uid) (b : Bool) : Fresh (s.joined uid b) := by
  intro hstage
  have hplayed : (s.joined uid b).table.played = s.table.played := by rw [table_joined]
  exact hplayed.trans (hfresh hstage)

theorem carries_of_joins (h : Idle s) (hfresh : Fresh s) {rt : Runtime} {uid : Uid}
    (hjoins : Joins rt s uid s') : Carries s s' := by
  cases hjoins with
  | refused => exact s.still_refl.carries hfresh
  | waits hopen hnew hlen =>
    refine ⟨.single ?_, fresh_joined hfresh uid false⟩
    rw [table_joined]
    exact .sit s.table uid hnew (Nat.succ_lt_succ hlen).ne
  | starts hopen hnew hlen =>
    have hseats := (h.joined hopen hnew (by omega) (b := true) (by simp [hlen])).seats
    have hthree : (s.joined uid true).logic.order.length = 3 := hseats.started.mp rfl
    have hwaiting := h.seats.waiting (h.seats.not_started (by omega))
    have hstage : s.logic.stage ≠ .playing := by simp [hwaiting]
    have htable := table_deal rt (s := s.joined uid true) hstage (fresh_joined hfresh uid true)
    have hopening : Carries s ((s.joined uid true).deal rt) := by
      refine ⟨.single ?_, fun _ => congrArg Table.played htable⟩
      rw [htable]
      exact .opening s.table uid hnew _ _ (cards_dealt rt hseats.nodup hthree)
    exact hopening.still (still_goto _ _)

/-- **Every step but a leave is some moves on the table.** -/
theorem carries_step {a : Runtime × Act} (h : Seated s) (hfresh : Fresh s)
    (hstays : a.2.stays = true) (hstep : s.step a = some s') : Carries s s' := by
  cases happens_of_step hstep with
  | call hc =>
    have hidle : Still s { s with pending := none } := ⟨rfl, rfl⟩
    refine hidle.then (carries_exec (s := { s with pending := none }) _ h.seats ?_ (h.pending _ hc))
    exact hidle.fresh hfresh
  | setOnline | expire => exact Still.carries ⟨rfl, rfl⟩ hfresh
  | fire hp k uid =>
    have hmark : Still s (s.markTimer k .done) := ⟨rfl, rfl⟩
    exact (hmark.trans (prompts_timeUp _ uid).still).carries hfresh
  | join hp uid =>
    have hidle : Idle s := { h with idle := hp }
    exact carries_of_joins hidle hfresh (hidle.joins _ uid)
  | leave hp uid => cases hstays
  | message hp uid req => exact (prompts_message s uid req).still.carries hfresh
  | tick hp => exact (prompts_tick s).still.carries hfresh
  | timeout hp => exact s.still_timeout.carries hfresh

end Carries

/-! ### Whole games -/

/-- The players are seated, and with three of them the deck is in the room. -/
structure Complete (s : Room) : Prop extends Seated s where
  fresh : Fresh s
  cards : s.logic.order.length = 3 → s.table.cards = fullDeck

theorem complete_newRoom (seed : BitVec 64) : Complete (newRoom seed) :=
  { seated_newRoom seed with fresh := fun _ => rfl, cards := nofun }

theorem Complete.step {s s' : Room} {a : Runtime × Act} (h : Complete s)
    (hstays : a.2.stays = true) (hstep : s.step a = some s') : Complete s' :=
  have hcarries := carries_step h.toSeated h.fresh hstays hstep
  { h.toSeated.step hstays hstep with
    fresh := hcarries.fresh
    cards := Table.cards_of_moves hcarries.moves h.seats.nodup h.cards }

theorem complete_of_run (seed : BitVec 64) {acts : List (Runtime × Act)} {s : Room}
    (hstay : ∀ a ∈ acts, a.2.stays = true)
    (hrun : run Room.step (newRoom seed) acts = some s) : Complete s :=
  invariant_of_run (fun _ _ _ h hstays hstep => h.step hstays hstep)
    (complete_newRoom seed) (along_of_forall_mem hstay) hrun

/-- **The deck is conserved** as long as nobody leaves: the hands, the landlord's three cards until
the landlord has them, and the cards played since the last deal are the deck. -/
theorem deck_conserved (seed : BitVec 64) {acts : List (Runtime × Act)} {s : Room}
    (hstay : ∀ a ∈ acts, a.2.stays = true)
    (hrun : run Room.step (newRoom seed) acts = some s)
    (hthree : s.logic.order.length = 3) :
    total s.logic.order s.logic.hand + s.logic.kitty + playedCards s.log =
        (fullDeck : Multiset Card) ∧
      ((total s.logic.order s.logic.hand + s.logic.kitty + playedCards s.log).map
        Card.id).Nodup := by
  have hcards := (complete_of_run seed hstay hrun).cards hthree
  refine ⟨hcards, ?_⟩
  rw [show total s.logic.order s.logic.hand + s.logic.kitty + playedCards s.log =
    (fullDeck : Multiset Card) from hcards, Multiset.map_coe, Multiset.coe_nodup]
  exact nodup_id_fullDeck

/-- The first player bids three, tries two cards that do not match, and plays a pair; the second one
passes offline. -/
def firstTurns : List (Runtime × Act) :=
  [Act.join "a", .join "b", .join "c", .cont, .cont, .message "a" (.call 3), .cont, .cont, .cont,
    .message "a" (.play [104, 205]), .cont, .setOnline "b" false, .message "a" (.play [104, 4]),
    .cont, .cont, .cont, .cont].map (Runtime.plain, ·)

theorem deck_conserved_firstTurns : ∃ s, run Room.step (newRoom 20260923) firstTurns = some s ∧
      s.logic.order.length = 3 ∧ (playedCards s.log).map Card.id = [4, 104] ∧
      total s.logic.order s.logic.hand + s.logic.kitty + playedCards s.log =
        (fullDeck : Multiset Card) := by
  have heval : (run Room.step (newRoom 20260923) firstTurns).map (fun s =>
      (s.logic.order.length, (playedCards s.log).map Card.id)) = some (3, [4, 104]) := by
    decide +kernel
  obtain ⟨s, hrun, hs⟩ := Option.map_eq_some_iff.mp heval
  obtain ⟨hthree, hplayed⟩ := Prod.mk.inj hs
  have hstay : ∀ a ∈ firstTurns, a.2.stays = true := by decide
  exact ⟨s, hrun, hthree, hplayed, (deck_conserved 20260923 hstay hrun hthree).1⟩

end Room

end RanGame.Doudizhu
