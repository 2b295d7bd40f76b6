import RanGame.Doudizhu.Room

/-!
# Who sits where

As long as nobody leaves, the players of a game are the members of the room in the order they
joined, and a game that has started has exactly three. Every index and every ID in the game is that
of one of them, so no handler panics.
-/

namespace RanGame.Doudizhu

/-- The players are seated as they joined, and every index and ID is that of a player. -/
structure Seats (l : Logic) : Prop where
  players : l.players = l.order
  nodup : l.order.Nodup
  length_le : l.order.length ≤ 3
  started : l.started = true ↔ l.order.length = 3
  waiting : l.started = false → l.stage = .waiting
  bidIndex : l.bidIndex < 3
  cur : 0 ≤ l.cur ∧ l.cur < 3
  last : ∀ ntf, l.lastPlayed = some ntf → ntf.uid ∈ l.order
  landlord : l.stage = .playing → l.landlord ∈ l.order
  bidder : l.maxBidder = "" ∨ l.maxBidder ∈ l.order

/-- The calls that may be pending: each belongs to a stage, and is for a player. -/
def Call.Fits (l : Logic) : Call → Prop
  | .startBidding => l.started = true ∧ l.stage ≠ .playing
  | .askBid | .finishBidding => l.stage = .bidding
  | .applyBid uid _ => l.stage = .bidding ∧ uid ∈ l.order
  | .nextTurn _ => l.stage = .playing
  | .autoPlay uid _ | .applyPlay uid _ => l.stage = .playing ∧ uid ∈ l.order

/-- Does it act for the player whose turn it is? -/
def Call.Acts (l : Logic) : Call → Prop
  | .applyBid uid _ => l.stage = .bidding ∧ l.currentUID = some uid
  | .autoPlay uid _ | .applyPlay uid _ => l.stage = .playing ∧ l.currentUID = some uid
  | _ => False

namespace Seats

open List Option

variable {l : Logic}

theorem currentUID_of_bidding (h : l.stage = .bidding) : l.currentUID = l.order[l.bidIndex]? := by
  rw [Logic.currentUID, h]

theorem currentUID_of_playing (h : l.stage = .playing) : l.currentUID = l.seat := by
  rw [Logic.currentUID, h]

theorem length_eq (h : Seats l) (hstage : l.stage ≠ .waiting) : l.order.length = 3 := by
  rw [← h.started]
  by_contra hs
  exact hstage (h.waiting (by simpa using hs))

theorem exists_bidder (h : Seats l) (hstage : l.stage = .bidding) :
    ∃ uid ∈ l.order, l.order[l.bidIndex]? = some uid := by
  have hlen := h.length_eq (by simp [hstage])
  have hlt : l.bidIndex < l.order.length := hlen ▸ h.bidIndex
  exact ⟨_, getElem_mem hlt, getElem?_eq_getElem hlt⟩

theorem exists_seat (h : Seats l) (hstage : l.stage = .playing) :
    ∃ uid ∈ l.order, l.seat = some uid := by
  have hlen := h.length_eq (by simp [hstage])
  obtain ⟨hnonneg, hcur⟩ := h.cur
  have hlt : l.cur.toNat < l.order.length := by omega
  refine ⟨_, getElem_mem hlt, ?_⟩
  rw [Logic.seat, if_neg (by omega), getElem?_eq_getElem hlt]

theorem exists_current (h : Seats l) : ∃ uid, l.currentUID = some uid := by
  cases hstage : l.stage with
  | bidding =>
    obtain ⟨uid, -, huid⟩ := h.exists_bidder hstage
    exact ⟨uid, (currentUID_of_bidding hstage).trans huid⟩
  | playing =>
    obtain ⟨uid, -, huid⟩ := h.exists_seat hstage
    exact ⟨uid, (currentUID_of_playing hstage).trans huid⟩
  | waiting | finished => exact ⟨"", by rw [Logic.currentUID, hstage]⟩

/-! ### Changes to the game -/

theorem setTimer (h : Seats l) (t : Option ℕ) : Seats { l with turnTimer := t } := { h with }

theorem setHand (h : Seats l) (uid : Uid) (cards : List Card) : Seats (l.setHand uid cards) :=
  { h with }

theorem redeal (h : Seats l) : Seats l.redeal := { h with }

theorem countPass (h : Seats l) : Seats l.countPass := { h with }

variable {uid : Uid}

variable (h : Seats l)

include h

theorem forceBid (huid : uid ∈ l.order) : Seats (l.forceBid uid) :=
  { h with bidder := .inr huid }

theorem setLast {ntf : PlayedNtf} (huid : ntf.uid ∈ l.order) : Seats (l.setLast ntf) :=
  { h with
    last := by
      intro ntf' hntf
      cases hntf
      exact huid }

theorem openBidding (hstarted : l.started = true) : Seats l.openBidding :=
  { h with
    waiting := fun hs => by cases hstarted.symm.trans hs
    bidIndex := Nat.succ_pos 2
    landlord := nofun
    bidder := .inl rfl }

theorem countBid (huid : uid ∈ l.order) (score : ℤ) : Seats (l.countBid uid score) :=
  { h with
    bidder := by
      simp only [Logic.countBid]
      split
      · exact .inr huid
      · exact h.bidder }

theorem nextBidder (hstage : l.stage ≠ .waiting) : Seats l.nextBidder :=
  { h with
    bidIndex := by
      rw [Logic.nextBidder, h.length_eq hstage]
      exact Nat.mod_lt _ (Nat.succ_pos 2) }

theorem crown (hstage : l.stage = .bidding) : Seats l.crown :=
  { h with landlord := fun hs => by cases hstage.symm.trans hs }

theorem idxOf_lt (huid : uid ∈ l.order) :
    (0 : ℤ) ≤ l.order.idxOf uid ∧ (l.order.idxOf uid : ℤ) < 3 := by
  have hlt := idxOf_lt_length_of_mem huid
  have := h.length_le
  omega

theorem beginPlay (hstarted : l.started = true) (hlandlord : l.landlord ∈ l.order) :
    Seats l.beginPlay :=
  { h with
    waiting := fun hs => by cases hstarted.symm.trans hs
    cur := by
      rw [Logic.beginPlay, if_pos hlandlord]
      exact h.idxOf_lt hlandlord
    last := nofun
    landlord := fun _ => hlandlord }

theorem freeLead : Seats l.freeLead := { h with last := nofun }

theorem nextSeat (hstage : l.stage ≠ .waiting) : Seats l.nextSeat :=
  { h with
    cur := by
      simp only [Logic.nextSeat, h.length_eq hstage]
      omega }

theorem turnTo (huid : uid ∈ l.order) : Seats (l.turnTo uid) :=
  { h with
    cur := by
      simp only [Logic.turnTo, Logic.indexOf, if_pos huid]
      exact h.idxOf_lt huid }

theorem not_started (hlen : l.order.length < 3) : l.started = false := by
  rw [Bool.eq_false_iff, ne_eq, h.started]
  exact hlen.ne

theorem sit (hlen : l.order.length < 3) (huid : uid ∉ l.order) {b : Bool}
    (hb : b = true ↔ l.order.length = 2) : Seats { l.sit uid with started := b } :=
  { h with
    players := by simp only [Logic.sit, h.players, if_neg huid]
    nodup := by
      simp only [Logic.sit, ← concat_eq_append]
      exact h.nodup.concat huid
    length_le := by
      simp only [Logic.sit, length_append, length_singleton]
      omega
    started := by
      simp only [Logic.sit, length_append, length_singleton, hb]
      omega
    waiting := fun _ => h.waiting (h.not_started hlen)
    last := fun ntf hntf => mem_append_left _ (h.last ntf hntf)
    landlord := fun hs => mem_append_left _ (h.landlord hs)
    bidder := h.bidder.imp id (mem_append_left _) }

end Seats

namespace Room

/-! ### What a call does -/

/-- The landlord has taken the three cards, and the play has begun. -/
def taken (rt : Runtime) (s : Room) : Room :=
  let l := s.logic.crown
  let hand := rt.sort (l.hand l.landlord ++ l.landlord3)
  ((s.setLogic (l.setHand l.landlord hand).beginPlay).push l.landlord
    (.deal hand l.landlord3)).broadcast (.stage .playing)

def bid (s : Room) (uid : Uid) (score : ℤ) : Room :=
  let score := s.logic.bidScore score
  ((s.broadcast (.callNtf uid score (score = 0))).setLogic
    (s.logic.countBid uid score)).clearTurnTimer

/-- A turn has been announced, with nothing to beat if it is a free lead. -/
def turned (s : Room) (uid : Uid) (freeLead : Bool) : Room :=
  (s.setLogic (if freeLead then s.logic.freeLead else s.logic)).broadcast
    (.turn uid s.logic.landlord s.logic.baseScore)

def passed (s : Room) (uid : Uid) : Room :=
  (s.setLogic s.logic.countPass).broadcast (.played ⟨uid, [], .invalid, true⟩)

def played (rt : Runtime) (s : Room) (uid : Uid) (selected kept : List Card) : Room :=
  let ntf : PlayedNtf := ⟨uid, selected, (classify rt selected).1, false⟩
  (s.setLogic ((s.logic.setHand uid kept).setLast ntf)).broadcast (.played ntf)

/-- The game is in the same state, and the players are the same. -/
def Same (r s : Room) : Prop :=
  (r.logic.finished, r.logic.started, r.logic.players, r.logic.order) =
    (s.logic.finished, s.logic.started, s.logic.players, s.logic.order)

/-- The landlord is known: somebody bid, or the first player has to be it. -/
def Crowns (s : Room) (l : Logic) : Prop :=
  if s.logic.maxScore = 0 ∨ s.logic.maxBidder = "" then
    2 ≤ s.logic.redeals ∧ s.logic.order[0]?.map s.logic.forceBid = some l
  else l = s.logic

/-- What a call does. It panics only where the players are not seated. -/
inductive Does (rt : Runtime) (s : Room) : Call → Room → Prop
  | panics {c outs} {r : Room} (hr : r.Same s) (hlog : r.log = s.log ++ outs)
    (houts : ∀ o ∈ outs, ∃ ntf, o = .broadcast (.played ntf) ∧
      (ntf.cards = [] ∨ r.logic.lastPlayed = some ntf))
    (hbad : Seats s.logic → ¬c.Fits s.logic)
    (hroom : (r.members, r.closing, r.pending) = (s.members, s.closing, s.pending)) :
    Does rt s c r.panic
  | opens : Does rt s .startBidding s.startBidding
  | asks {uid} (huid : s.logic.order[s.logic.bidIndex]? = some uid) (hon : s.offline uid = false) :
    Does rt s .askBid ((s.broadcast (.turn uid "" 0)).setTurnTimer uid)
  | skips {uid} (huid : s.logic.order[s.logic.bidIndex]? = some uid) (hoff : s.offline uid = true) :
    Does rt s .askBid ((s.broadcast (.turn uid "" 0)).goto (.applyBid uid 0))
  | bidsLast {uid score} (hend : (s.bid uid score).logic.maxScore = 3 ∨
      s.logic.order.length ≤ s.logic.bidCount + 1) :
    Does rt s (.applyBid uid score) ((s.bid uid score).goto .finishBidding)
  | bids {uid score} (hcount : s.logic.bidCount + 1 < s.logic.order.length)
    (hmax : (s.bid uid score).logic.maxScore ≠ 3) : Does rt s (.applyBid uid score)
      (((s.bid uid score).setLogic (s.bid uid score).logic.nextBidder).goto .askBid)
  | redeals (hlt : s.logic.redeals < 2) (hnone : s.logic.maxScore = 0 ∨ s.logic.maxBidder = "") :
    Does rt s .finishBidding (((s.setLogic s.logic.redeal).deal rt).goto .startBidding)
  | picksUp {l} (hl : l = s.logic ∨ ∃ uid ∈ s.logic.order, l = s.logic.forceBid uid)
    (hbidder : Seats s.logic → l.maxBidder ∈ s.logic.order) (hwho : s.Crowns l) :
    Does rt s .finishBidding (((s.setLogic l).taken rt).goto (.nextTurn false))
  | turns {uid freeLead} (hseat : s.logic.seat = some uid) (hon : s.offline uid = false) :
    Does rt s (.nextTurn freeLead) ((s.turned uid freeLead).setTurnTimer uid)
  | replaces {uid freeLead} (hseat : s.logic.seat = some uid) (hoff : s.offline uid = true) :
    Does rt s (.nextTurn freeLead) ((s.turned uid freeLead).goto (.autoPlay uid freeLead))
  | leads {uid} : Does rt s (.autoPlay uid true)
      (s.goto (.applyPlay uid ((s.logic.hand uid).head?.toList.map Card.id)))
  | follows {uid} : Does rt s (.autoPlay uid false) (s.goto (.applyPlay uid []))
  | nothing {uid ids} (h : uid ∉ s.logic.players ∨ ids = [] ∧ s.logic.lastPlayed = none ∨
      ids ≠ [] ∧ takeCards (s.logic.hand uid) ids = none) : Does rt s (.applyPlay uid ids) s
  | passesLast {uid last} (hlast : s.logic.lastPlayed = some last)
    (hcount : 1 ≤ s.logic.passCount) : Does rt s (.applyPlay uid [])
      (((s.passed uid).setLogic (s.logic.countPass.turnTo last.uid)).goto (.nextTurn true))
  | passes {uid last} (hlast : s.logic.lastPlayed = some last) (hcount : s.logic.passCount < 1) :
    Does rt s (.applyPlay uid [])
      (((s.passed uid).setLogic s.logic.countPass.nextSeat).goto (.nextTurn false))
  | wins {uid ids selected} (hids : ids ≠ [])
    (htake : takeCards (s.logic.hand uid) ids = some (selected, []))
    (hok : accepts rt s.logic uid selected = true) :
    Does rt s (.applyPlay uid ids) ((s.played rt uid selected []).finish (uid = s.logic.landlord))
  | plays {uid ids selected kept} (hids : ids ≠ [])
    (htake : takeCards (s.logic.hand uid) ids = some (selected, kept)) (hkept : kept ≠ [])
    (hok : accepts rt s.logic uid selected = true) :
    Does rt s (.applyPlay uid ids) (((s.played rt uid selected kept).setLogic
      (s.played rt uid selected kept).logic.nextSeat).goto (.nextTurn false))
  | refuses {uid ids selected kept} (hids : ids ≠ [])
    (htake : takeCards (s.logic.hand uid) ids = some (selected, kept))
    (hnot : ¬accepts rt s.logic uid selected = true) :
    Does rt s (.applyPlay uid ids) (s.setLogic (s.logic.setHand uid (rt.sort (kept ++ selected))))

section Does

variable {rt : Runtime} {s : Room}

theorem mem_of_seat {l : Logic} {uid : Uid} (h : l.seat = some uid) : uid ∈ l.order := by
  rw [Logic.seat] at h
  split at h
  · cases h
  · exact List.mem_of_getElem? h

theorem Does.panic {c : Call} {r : Room} (hr : r.Same s) (hlog : r.log = s.log)
    (hroom : (r.members, r.closing, r.pending) = (s.members, s.closing, s.pending))
    (hbad : Seats s.logic → ¬c.Fits s.logic) : Does rt s c r.panic :=
  have hlog' : r.log = s.log ++ [] := by rw [hlog, List.append_nil]
  .panics hr hlog' nofun hbad hroom

theorem does_pickUp {l : Logic} (hl : l = s.logic ∨ ∃ uid ∈ s.logic.order, l = s.logic.forceBid uid)
    (hbidder : Seats s.logic → l.maxBidder ∈ s.logic.order) (hwho : s.Crowns l) :
    Does rt s .finishBidding ((s.setLogic l).pickUp rt) := by
  have hsame : (s.setLogic l.crown).Same s := by
    rcases hl with rfl | ⟨uid, -, rfl⟩ <;> rfl
  rw [pickUp]
  dsimp only
  split
  next hnot =>
    refine .panic hsame rfl rfl fun hs _ => hnot ?_
    have hplayers : l.players = s.logic.order := (congrArg (·.2.2.1) hsame).trans hs.players
    exact hplayers ▸ hbidder hs
  · exact .picksUp hl hbidder hwho

theorem does_finishBidding : Does rt s .finishBidding (s.finishBidding rt) := by
  rw [finishBidding]
  split
  next hnobid =>
    split
    · exact .redeals ‹_› hnobid
    next hredeals =>
      split
      next hnone =>
        refine .panic rfl rfl rfl fun hs hfits => ?_
        have hlen := hs.length_eq (by simp [show s.logic.stage = .bidding from hfits])
        rw [getElem?_eq_none_iff] at hnone
        omega
      next uid huid =>
        have hmem := List.mem_of_getElem? huid
        refine does_pickUp (.inr ⟨uid, hmem, rfl⟩) (fun _ => hmem) ?_
        rw [Crowns, if_pos hnobid, huid]
        exact ⟨not_lt.mp hredeals, rfl⟩
  next hbid =>
    refine does_pickUp (.inl rfl) (fun hs => hs.bidder.resolve_left fun h => hbid (.inr h)) ?_
    rw [Crowns, if_neg hbid]

theorem does_advance {uid : Uid} {ids : List ℤ} {r : Room} {ntf : PlayedNtf} (hr : r.Same s)
    (hroom : (r.members, r.closing, r.pending) = (s.members, s.closing, s.pending))
    (hlog : r.log = s.log ++ [.broadcast (.played ntf)])
    (hntf : ntf.cards = [] ∨ r.logic.lastPlayed = some ntf)
    (h : Does rt s (.applyPlay uid ids) ((r.setLogic r.logic.nextSeat).goto (.nextTurn false))) :
    Does rt s (.applyPlay uid ids) r.advance := by
  rw [advance]
  split
  next hnone =>
    refine .panics hr hlog (List.forall_mem_singleton.mpr ⟨ntf, rfl, hntf⟩) (fun hs hfits => ?_)
      hroom
    have horder : r.logic.order = s.logic.order := congrArg (·.2.2.2) hr
    rw [horder, hs.length_eq (by simp [hfits.1])] at hnone
    cases hnone
  · exact h

theorem does_applyPlay {uid : Uid} {ids : List ℤ} :
    Does rt s (.applyPlay uid ids) (s.applyPlay rt uid ids) := by
  rw [applyPlay]
  split
  · exact .nothing (.inl ‹_›)
  split
  · subst ids
    rw [applyPass]
    split
    · exact .nothing (.inr (.inl ⟨rfl, ‹_›⟩))
    next last hlast =>
      dsimp only
      split
      next hcount => exact .passesLast hlast (Nat.le_of_succ_le_succ hcount)
      next hcount =>
        exact does_advance rfl rfl rfl (.inl rfl) (.passes hlast (by
          simpa [setLogic, broadcast, emit, Logic.countPass] using hcount))
  rename_i hids
  split
  · exact .nothing (.inr (.inr ⟨hids, ‹_›⟩))
  rename_i selected kept htake
  split
  next hok =>
    dsimp only
    split
    · subst kept
      exact .wins hids htake hok
    · exact does_advance rfl rfl rfl (.inr rfl) (.plays hids htake ‹_› hok)
  · exact .refuses hids htake ‹_›

theorem does_exec (rt : Runtime) (s : Room) (c : Call) : Does rt s c (s.exec rt c) := by
  cases c with
  | startBidding => exact .opens
  | askBid =>
    change Does rt s _ s.askBid
    rw [askBid]
    split
    next hnone =>
      refine .panic rfl rfl rfl fun hs hfits => ?_
      obtain ⟨uid, -, huid⟩ := hs.exists_bidder hfits
      cases hnone.symm.trans huid
    next uid huid =>
      dsimp only
      split
      · exact .skips huid ‹_›
      · exact .asks huid (Bool.eq_false_iff.mpr ‹_›)
  | applyBid uid score =>
    change Does rt s _ (s.applyBid uid score)
    rw [applyBid]
    split
    · exact .bidsLast ‹_›
    next hmore =>
      rw [not_or, not_le] at hmore
      exact .bids hmore.2 hmore.1
  | finishBidding => exact does_finishBidding
  | nextTurn freeLead =>
    change Does rt s _ (s.nextTurn freeLead)
    rw [nextTurn]
    split
    next hnone =>
      refine .panic rfl rfl rfl fun hs hfits => ?_
      obtain ⟨uid, -, huid⟩ := hs.exists_seat hfits
      cases hnone.symm.trans huid
    next uid huid =>
      cases freeLead <;> simp only [if_true, Bool.false_eq_true, if_false] <;> split <;>
        rename_i hoff
      · exact .replaces huid hoff
      · exact .turns huid (Bool.eq_false_iff.mpr hoff)
      · exact .replaces huid hoff
      · exact .turns huid (Bool.eq_false_iff.mpr hoff)
  | autoPlay uid freeLead =>
    cases freeLead with
    | false => exact .follows
    | true =>
      change Does rt s _ (s.autoPlay uid true)
      rw [autoPlay, if_pos rfl]
      split
      next hnot => exact .panic rfl rfl rfl fun hs hfits => hnot (hs.players ▸ hfits.2)
      · exact .leads
  | applyPlay uid ids => exact does_applyPlay

end Does

/-- The members are the players, and timers and calls are for them. -/
structure Seated (s : Room) : Prop where
  seats : Seats s.logic
  members : s.closing = false → s.members = s.logic.order
  timers : ∀ t ∈ s.timers, t.uid ∈ s.logic.order
  pending : ∀ c, s.pending = some c → c.Fits s.logic
  calm : s.panicked = false

/-- The same, with no call pending. -/
structure Idle (s : Room) : Prop extends Seated s where
  idle : s.pending = none

/-! ### The room's services -/

section Services

variable {s : Room}

theorem Idle.pending_of (h : Idle s) (l : Logic) (c : Call) (hc : s.pending = some c) :
    c.Fits l := by
  cases h.idle.symm.trans hc

theorem Idle.setLogic (h : Idle s) {l : Logic} (hl : Seats l) (horder : l.order = s.logic.order) :
    Idle (s.setLogic l) where
  __ := h
  seats := hl
  members hc := (h.members hc).trans horder.symm
  timers t ht := by
    rw [Room.setLogic, horder]
    exact h.timers t ht
  pending := h.pending_of l

theorem Idle.emit (h : Idle s) (outs : List Out) : Idle (s.emit outs) :=
  { h with }

theorem Idle.broadcast (h : Idle s) (msg : Msg) : Idle (s.broadcast msg) := h.emit _

theorem Idle.push (h : Idle s) (uid : Uid) (msg : Msg) : Idle (s.push uid msg) := h.emit _

theorem Idle.goto (h : Idle s) (c : Call) (hc : c.Fits s.logic) : Seated (s.goto c) :=
  { h with
    pending := by
      intro c' hc'
      cases hc'
      exact hc }

theorem uid_of_mem_modify {ts : List Timer} {k : ℕ} {f : Timer → Timer} {P : Uid → Prop}
    (hf : ∀ t, (f t).uid = t.uid) (h : ∀ t ∈ ts, P t.uid) : ∀ t ∈ ts.modify k f, P t.uid := by
  intro t ht
  obtain ⟨i, hi, rfl⟩ := List.mem_iff_getElem.mp ht
  rw [List.getElem_modify]
  rw [List.length_modify] at hi
  split
  · rw [hf]
    exact h _ (List.getElem_mem hi)
  · exact h _ (List.getElem_mem hi)

theorem uid_of_mem_cancel {ts : List Timer} {k : Option ℕ} {P : Uid → Prop}
    (h : ∀ t ∈ ts, P t.uid) : ∀ t ∈ cancel ts k, P t.uid := by
  cases k with
  | none => exact h
  | some k => exact uid_of_mem_modify (fun t => by split <;> rfl) h

theorem Idle.clearTurnTimer (h : Idle s) : Idle s.clearTurnTimer :=
  { h with
    seats := h.seats.setTimer none
    timers := uid_of_mem_cancel h.timers
    pending := h.pending_of _ }

theorem Idle.setTurnTimer (h : Idle s) {uid : Uid} (huid : uid ∈ s.logic.order) :
    Idle (s.setTurnTimer uid) :=
  { h with
    seats := h.seats.setTimer _
    timers := by
      intro t ht
      rcases List.mem_append.mp ht with ht | ht
      · exact h.clearTurnTimer.timers t ht
      · obtain rfl := List.mem_singleton.mp ht
        exact huid
    pending := h.pending_of _ }

theorem Idle.close (h : Idle s) : Idle s.close := by
  rw [Room.close]
  split
  · exact h
  · refine Idle.emit ?_ _
    exact { h with members := nofun }

theorem Idle.finish (h : Idle s) (win : Bool) : Idle (s.finish win) := by
  rw [Room.finish]
  split
  · exact h
  · have hlogic : Idle (s.setLogic { s.logic with finished := true }) :=
      h.setLogic { h.seats with } rfl
    exact ((hlogic.clearTurnTimer.broadcast _).emit _).close

theorem Idle.deal (h : Idle s) (rt : Runtime) : Idle (s.deal rt) := by
  have hdealt : Seats (dealt rt s.logic) := { h.seats with }
  exact (h.setLogic hdealt rfl).emit _

end Services

/-! ### Calls -/

section Calls

variable {s : Room}

variable {uid : Uid} {rt : Runtime}

theorem Idle.bid (h : Idle s) (hmem : uid ∈ s.logic.order) {score : ℤ} : Idle (s.bid uid score) :=
  ((h.broadcast _).setLogic (h.seats.countBid hmem _) rfl).clearTurnTimer

theorem Idle.taken (h : Idle s) (hstage : s.logic.stage = .bidding)
    (hbidder : s.logic.maxBidder ∈ s.logic.order) : Idle (s.taken rt) := by
  have hstarted := h.seats.started.mpr (h.seats.length_eq (by simp [hstage]))
  have hbegin := ((h.seats.crown hstage).setHand s.logic.maxBidder
    (rt.sort (s.logic.hand s.logic.maxBidder ++ s.logic.landlord3))).beginPlay hstarted hbidder
  exact ((h.setLogic hbegin rfl).push _ _).broadcast _

theorem Idle.turned (h : Idle s) {freeLead : Bool} : Idle (s.turned uid freeLead) := by
  cases freeLead with
  | true => exact (h.setLogic h.seats.freeLead rfl).broadcast _
  | false => exact h.broadcast _

theorem Idle.passed (h : Idle s) : Idle (s.passed uid) :=
  (h.setLogic h.seats.countPass rfl).broadcast _

theorem Idle.played (h : Idle s) (hmem : uid ∈ s.logic.order) {selected kept : List Card} :
    Idle (s.played rt uid selected kept) :=
  (h.setLogic ((h.seats.setHand uid kept).setLast hmem) rfl).broadcast _

/-- **Every call keeps the players seated**, and none of them panics. -/
theorem Idle.exec (h : Idle s) {c : Call} (hfits : c.Fits s.logic) (rt : Runtime) :
    Seated (s.exec rt c) := by
  have hwait : ∀ {st : Stage}, s.logic.stage = st → st ≠ .waiting → s.logic.stage ≠ .waiting :=
    fun hst hne hw => hne (hst.symm.trans hw)
  have hdoes := does_exec rt s c
  generalize s.exec rt c = s' at hdoes ⊢
  cases hdoes with
  | panics hr hlog houts hbad => exact absurd hfits (hbad h.seats)
  | opens => exact ((h.setLogic (h.seats.openBidding hfits.1) rfl).broadcast _).goto .askBid rfl
  | asks huid => exact ((h.broadcast _).setTurnTimer (List.mem_of_getElem? huid)).toSeated
  | skips huid => exact (h.broadcast _).goto (.applyBid _ 0) ⟨hfits, List.mem_of_getElem? huid⟩
  | bidsLast => exact (h.bid hfits.2).goto .finishBidding hfits.1
  | @bids uid score =>
    have hbid : Idle (s.bid uid score) := h.bid hfits.2
    exact (hbid.setLogic (hbid.seats.nextBidder (hwait hfits.1 nofun)) rfl).goto .askBid hfits.1
  | redeals =>
    have hstage : s.logic.stage = .bidding := hfits
    refine ((h.setLogic h.seats.redeal rfl).deal rt).goto .startBidding
      ⟨h.seats.started.mpr (h.seats.length_eq (hwait hstage nofun)), fun hplay => ?_⟩
    cases hstage.symm.trans hplay
  | @picksUp l hl hbidder =>
    have hforced : Idle (s.setLogic l) ∧ l.stage = .bidding ∧ l.order = s.logic.order := by
      rcases hl with rfl | ⟨uid, hmem, rfl⟩
      · exact ⟨h, hfits, rfl⟩
      · exact ⟨h.setLogic (h.seats.forceBid hmem) rfl, hfits, rfl⟩
    exact (hforced.1.taken hforced.2.1 (hforced.2.2 ▸ hbidder h.seats)).goto (.nextTurn false) rfl
  | @turns uid freeLead hseat =>
    refine (h.turned.setTurnTimer ?_).toSeated
    cases freeLead <;> exact mem_of_seat hseat
  | @replaces uid freeLead hseat =>
    refine h.turned.goto _ ?_
    cases freeLead <;> exact ⟨hfits, mem_of_seat hseat⟩
  | leads | follows => exact h.goto _ hfits
  | nothing => exact h.toSeated
  | passesLast hlast =>
    exact (h.passed.setLogic (h.seats.countPass.turnTo (h.seats.last _ hlast)) rfl).goto
      (.nextTurn true) hfits.1
  | passes hlast =>
    exact (h.passed.setLogic (h.seats.countPass.nextSeat (hwait hfits.1 nofun)) rfl).goto
      (.nextTurn false) hfits.1
  | wins => exact ((h.played hfits.2).finish _).toSeated
  | @plays uid _ selected kept =>
    have hplayed : Idle (s.played rt uid selected kept) := h.played hfits.2
    exact (hplayed.setLogic (hplayed.seats.nextSeat (hwait hfits.1 nofun)) rfl).goto
      (.nextTurn false) hfits.1
  | refuses => exact (h.setLogic (h.seats.setHand _ _) rfl).toSeated

end Calls

/-! ### Envelopes -/

section Envelopes

variable {s : Room} {uid : Uid}

/-- A handler that at most leaves a call, for the player whose turn it is. -/
inductive Prompts (s : Room) : Room → Prop
  | nothing : Prompts s s
  | call (c : Call) (hc : c.Acts s.logic) : Prompts s (s.goto c)
  | panic (hcur : s.logic.currentUID = none) : Prompts s s.panic

theorem prompts_takeOver (hcur : s.logic.currentUID = some uid) : Prompts s (s.takeOver uid) := by
  rw [takeOver]
  split
  · exact .call _ ⟨‹_›, hcur⟩
  · exact .call _ ⟨‹_›, hcur⟩
  · exact .nothing
  · exact .nothing

theorem prompts_timeUp (s : Room) (uid : Uid) : Prompts s (s.timeUp uid) := by
  rw [timeUp]
  split
  · exact .panic ‹_›
  next hcur =>
    split
    · subst uid
      exact prompts_takeOver hcur
    · exact .nothing

theorem prompts_tick (s : Room) : Prompts s s.tick := by
  rw [tick]
  split
  · exact .nothing
  · split
    · exact .panic ‹_›
    next hcur =>
      split
      · exact prompts_takeOver hcur
      · exact .nothing

theorem prompts_message (s : Room) (uid : Uid) (req : Request) : Prompts s (s.message uid req) := by
  unfold message
  split
  · exact .nothing
  · split
    · exact .panic ‹_›
    next hcur =>
      split
      · exact .nothing
      next heq =>
        rw [← not_not.mp heq] at hcur
        split
        · exact .call _ ⟨‹_›, hcur⟩
        · exact .call _ ⟨‹_›, hcur⟩
        · exact .nothing

theorem fits_of_acts {l : Logic} {c : Call} (h : c.Acts l) : c.Fits l := by
  cases c with
  | applyBid => exact ⟨h.1, List.mem_of_getElem? ((Seats.currentUID_of_bidding h.1).symm.trans h.2)⟩
  | autoPlay | applyPlay =>
    exact ⟨h.1, mem_of_seat ((Seats.currentUID_of_playing h.1).symm.trans h.2)⟩
  | _ => exact h.elim

theorem Idle.of_prompts (h : Idle s) {s' : Room} (hp : Prompts s s') : Seated s' := by
  cases hp with
  | nothing => exact h.toSeated
  | call c hc => exact h.goto c (fits_of_acts hc)
  | panic hcur =>
    obtain ⟨cur, hcur'⟩ := h.seats.exists_current
    cases hcur.symm.trans hcur'

theorem Idle.timeout (h : Idle s) : Seated s.timeout := by
  rw [Room.timeout]
  split
  · exact h.close.toSeated
  next hplay =>
    rw [not_or, not_not] at hplay
    rw [if_neg (by rw [not_not, h.seats.players]; exact h.seats.landlord hplay.2)]
    exact (h.finish _).close.toSeated

def joined (s : Room) (uid : Uid) (started : Bool) : Room :=
  ({ s with members := s.members ++ [uid] }.setLogic
    { s.logic.sit uid with started }).broadcast (.memberChange uid true)

/-- What a join is: refused, the player waits, or the game starts. -/
inductive Joins (rt : Runtime) (s : Room) (uid : Uid) : Room → Prop
  | refused : Joins rt s uid s
  | waits (hopen : s.closing = false) (hnew : uid ∉ s.logic.order)
    (hlen : s.logic.order.length < 2) : Joins rt s uid (s.joined uid false)
  | starts (hopen : s.closing = false) (hnew : uid ∉ s.logic.order)
    (hlen : s.logic.order.length = 2) :
    Joins rt s uid (((s.joined uid true).deal rt).goto .startBidding)

theorem Idle.joins (h : Idle s) (rt : Runtime) (uid : Uid) : Joins rt s uid (s.join rt uid) := by
  rw [Room.join]
  split
  · exact .refused
  rename_i hfree
  rw [not_or, not_or, Bool.not_eq_true] at hfree
  obtain ⟨hopen, hnew, hroom⟩ := hfree
  rw [h.members hopen] at hnew hroom
  have hwait : s.logic.started = false := h.seats.not_started (by omega)
  have hplayers : (s.logic.sit uid).players.length = s.logic.order.length + 1 := by
    simp [Logic.sit, h.seats.players, hnew]
  dsimp only
  split
  next hthird =>
    have hlen : 3 ≤ (s.logic.sit uid).players.length := hthird.1
    exact .starts hopen hnew (by omega)
  next hthird =>
    have hsame : s.logic.sit uid = { s.logic.sit uid with started := false } := by
      rw [← hwait]
      rfl
    have hlen : ¬3 ≤ (s.logic.sit uid).players.length := fun hlen => hthird ⟨hlen, hwait⟩
    rw [hsame]
    exact .waits hopen hnew (by omega)

theorem Idle.joined (h : Idle s) (hopen : s.closing = false) (hnew : uid ∉ s.logic.order)
    (hlen : s.logic.order.length < 3) {b : Bool} (hb : b = true ↔ s.logic.order.length = 2) :
    Idle (s.joined uid b) := by
  refine Idle.broadcast ?_ _
  exact {
      seats := h.seats.sit hlen hnew hb
      members := fun _ => congrArg (· ++ [uid]) (h.members hopen)
      timers := fun t ht => List.mem_append_left _ (h.timers t ht)
      pending := h.pending_of _
      calm := h.calm
      idle := h.idle }

theorem Idle.of_joins (h : Idle s) {rt : Runtime} {s' : Room} (hjoins : Joins rt s uid s') :
    Seated s' := by
  cases hjoins with
  | refused => exact h.toSeated
  | waits hopen hnew hlen => exact (h.joined hopen hnew (by omega) (by simp [hlen.ne])).toSeated
  | starts hopen hnew hlen =>
    have hjoined := h.joined hopen hnew (by omega) (b := true) (by simp [hlen])
    refine (hjoined.deal rt).goto .startBidding ⟨rfl, ?_⟩
    have hwaiting : s.logic.stage = .waiting := h.seats.waiting (h.seats.not_started (by omega))
    intro hplay
    cases hwaiting.symm.trans hplay

theorem Idle.join (h : Idle s) (rt : Runtime) (uid : Uid) : Seated (s.join rt uid) :=
  h.of_joins (h.joins rt uid)

end Envelopes

/-! ### Steps -/

end Room

def Act.stays : Act → Bool
  | .leave _ => false
  | _ => true

namespace Room

variable {s : Room}

theorem Seated.markTimer (h : Seated s) (k : ℕ) (state : TimerState) :
    Seated (s.markTimer k state) :=
  { h with timers := uid_of_mem_modify (fun _ => rfl) h.timers }

/-- What a step of a room is: a call, a change around the room, or an envelope. -/
inductive Happens (s : Room) : Runtime × Act → Room → Prop
  | call {rt c} (hc : s.pending = some c) :
    Happens s (rt, .cont) ({ s with pending := none }.exec rt c)
  | setOnline {rt} (uid : Uid) (online : Bool) :
    Happens s (rt, .setOnline uid online) { s with online := Function.update s.online uid online }
  | expire {rt} (k : ℕ) : Happens s (rt, .expire k) (s.markTimer k .posted)
  | fire {rt} (hp : s.pending = none) (k : ℕ) (uid : Uid) :
    Happens s (rt, .fire k) ((s.markTimer k .done).timeUp uid)
  | join {rt} (hp : s.pending = none) (uid : Uid) : Happens s (rt, .join uid) (s.join rt uid)
  | leave {rt} (hp : s.pending = none) (uid : Uid) : Happens s (rt, .leave uid) (s.leave uid)
  | message {rt} (hp : s.pending = none) (uid : Uid) (req : Request) :
    Happens s (rt, .message uid req) (s.message uid req)
  | tick {rt} (hp : s.pending = none) : Happens s (rt, .tick) s.tick
  | timeout {rt} (hp : s.pending = none) : Happens s (rt, .timeout) s.timeout

theorem happens_of_step {s' : Room} {a : Runtime × Act} (h : s.step a = some s') :
    Happens s a s' := by
  obtain ⟨rt, act⟩ := a
  -- online changes and expiring timers do not depend on what is pending
  rcases act with _ | ⟨uid, online⟩ | k | k | uid | uid | ⟨uid, req⟩ | _ | _
  case setOnline => exact Option.some.inj h ▸ .setOnline uid online
  case expire =>
    simp only [Room.step] at h
    split at h
    · exact Option.some.inj h ▸ .expire k
    · cases h
  all_goals rcases hp : s.pending with _ | c <;> simp only [Room.step, hp] at h
  case cont.none => cases h
  case cont.some => exact Option.some.inj h ▸ .call hp
  case fire.none =>
    split at h
    · exact Option.some.inj h ▸ .fire hp k _
    · cases h
  case join.none => exact Option.some.inj h ▸ .join hp uid
  case leave.none => exact Option.some.inj h ▸ .leave hp uid
  case message.none => exact Option.some.inj h ▸ .message hp uid req
  case tick.none => exact Option.some.inj h ▸ .tick hp
  case timeout.none => exact Option.some.inj h ▸ .timeout hp
  all_goals cases h

/-- **Every step but a leave keeps the players seated.** -/
theorem Seated.step {s' : Room} {a : Runtime × Act} (h : Seated s) (hstays : a.2.stays = true)
    (hstep : s.step a = some s') : Seated s' := by
  cases happens_of_step hstep with
  | call hc =>
    have hidle : Idle { s with pending := none } := { h with pending := nofun, idle := rfl }
    exact hidle.exec (h.pending _ hc) _
  | setOnline uid online => exact { h with }
  | expire k => exact h.markTimer k .posted
  | fire hp k uid =>
    have hmark : Idle (s.markTimer k .done) := { h.markTimer k .done with idle := hp }
    exact hmark.of_prompts (prompts_timeUp _ uid)
  | join hp uid => exact Idle.join { h with idle := hp } _ uid
  | leave hp uid => cases hstays
  | message hp uid req => exact Idle.of_prompts { h with idle := hp } (prompts_message s uid req)
  | tick hp => exact Idle.of_prompts { h with idle := hp } (prompts_tick s)
  | timeout hp => exact Idle.timeout { h with idle := hp }

theorem seated_newRoom (seed : BitVec 64) : Seated (newRoom seed) where
  seats :=
    { players := rfl, nodup := List.nodup_nil, length_le := Nat.zero_le 3
      started := by simp [newRoom], waiting := fun _ => rfl, bidIndex := Nat.succ_pos 2
      cur := by simp [newRoom], last := nofun, landlord := nofun, bidder := .inl rfl }
  members _ := rfl
  timers := nofun
  pending := nofun
  calm := rfl

end Room

end RanGame.Doudizhu
