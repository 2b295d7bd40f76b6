import RanGame.Doudizhu.Conservation
import RanGame.Doudizhu.Settlement

/-!
# Somebody acts for every player

A game waits for one player at a time: a turn timer has been set for them, or they were offline and
the game goes on without them. But when the play begins and the landlord is offline, `autoPlay`
passes for them, there is nothing to pass on, and no timer is set; if they come back before the next
`Tick`, the game waits for them without a timer.
-/

namespace RanGame.Doudizhu

open Function Machine Option List

/-- Is the callback still to come? -/
def TimerState.live : TimerState → Bool
  | .armed | .posted => true
  | .cancelled | .done => false

/-! ### Hands -/

theorem takeLoop_nil (hand : List Card) : takeLoop [] hand = ([], [], hand) := by
  induction hand with
  | nil => rfl
  | cons c hand ih => simp [takeLoop, ih]

theorem takeCards_head (c : Card) (hand : List Card) :
    takeCards (c :: hand) [c.id] = some ([c], hand) := by
  simp [takeCards, takeLoop, takeLoop_nil]

theorem classify_single (rt : Runtime) (c : Card) : classify rt [c] = (.single, c.rank) := by
  simp [classify]

theorem Runtime.sort_ne_nil (rt : Runtime) {cards : List Card} (h : cards ≠ []) :
    rt.sort cards ≠ [] := by
  intro hnil
  have hperm := rt.sort_perm cards
  rw [hnil] at hperm
  exact h hperm.symm.eq_nil

theorem Room.length_dealt (rt : Runtime) {l : Logic} (hlen : l.order.length = 3) {uid : Uid}
    (huid : uid ∈ l.order) : ((Room.dealt rt l).hand uid).length = 17 := by
  have hdeck : ((Room.shuffled l.seed).2.toList.take 51).length = 51 := by
    rw [length_take, (Room.perm_shuffled l.seed).length_eq, length_fullDeck]
    rfl
  simp only [Room.dealt, hlen]
  refine Piles.assign_of_mem (P := fun hand => hand.length = 17) huid l.hand fun n hn => ?_
  rw [hlen] at hn
  rw [(rt.sort_perm _).length_eq, Piles.length_roundRobin, hdeck]
  obtain rfl | rfl | rfl : n = 0 ∨ n = 1 ∨ n = 2 := by omega
  all_goals rfl

namespace Room

def Dealt (s : Room) : Prop := s.logic.started = true → ∀ uid ∈ s.logic.order, s.logic.hand uid ≠ []

/-- In a game that has started, every hand is of some kind. -/
def Hands (P : List Card → Prop) (s : Room) : Prop :=
  s.logic.started = true → ∀ uid ∈ s.logic.order, P (s.logic.hand uid)

/-- A kind of hands that the deal gives, and that taking cards out or putting them back keeps. -/
structure Lasting (P : List Card → Prop) : Prop where
  deal : ∀ rt {l : Logic}, l.order.length = 3 → ∀ {uid}, uid ∈ l.order → P ((dealt rt l).hand uid)
  pickUp : ∀ (rt : Runtime) {hand} (more : List Card), P hand → P (rt.sort (hand ++ more))
  keep : ∀ {hand ids selected kept}, takeCards hand ids = some (selected, kept) → kept ≠ [] →
    P hand → P kept
  back : ∀ (rt : Runtime) {hand ids selected kept}, takeCards hand ids = some (selected, kept) →
    P hand → P (rt.sort (kept ++ selected))

section Hands

variable {P : List Card → Prop} {s s' : Room}

theorem Hands.setHand (h : Hands P s) (uid : Uid) {cards : List Card} (hcards : P cards) :
    Hands P (s.setLogic (s.logic.setHand uid cards)) := by
  intro hstarted u hu
  change P (update s.logic.hand uid cards u)
  by_cases huid : u = uid
  · rw [huid, update_self]
    exact hcards
  · rw [update_of_ne huid]
    exact h hstarted u hu

theorem Lasting.exec (hP : Lasting P) (hidle : Idle s) {c : Call} (hfits : c.Fits s.logic)
    (rt : Runtime) (h : Hands P s) :
    (s.exec rt c).logic.finished = true ∧ (s.exec rt c).pending = none ∨ Hands P (s.exec rt c) := by
  have hstarted := started_of_fits hidle.seats hfits
  have hdoes := does_exec rt s c
  generalize s.exec rt c = s' at hdoes ⊢
  cases hdoes with
  | panics hr hlog houts hbad => exact absurd hfits (hbad hidle.seats)
  | redeals => exact .inr fun _ _ => hP.deal rt (hidle.seats.started.mp hstarted)
  | @picksUp l hl hbidder =>
    have hcrown : Hands P (s.setLogic l.crown) ∧ l.hand = s.logic.hand := by
      rcases hl with rfl | ⟨uid, -, rfl⟩ <;> exact ⟨h, rfl⟩
    have hhand := h hstarted l.maxBidder (hbidder hidle.seats)
    exact .inr (hcrown.1.setHand l.maxBidder (hP.pickUp rt _ (hcrown.2 ▸ hhand)))
  | @turns _ freeLead | @replaces _ freeLead => cases freeLead <;> exact .inr h
  | wins => exact .inl ⟨finished_finish _ _, ((hidle.played hfits.2).finish _).idle⟩
  | plays hids htake hkept => exact .inr (h.setHand _ (hP.keep htake hkept (h hstarted _ hfits.2)))
  | refuses hids htake => exact .inr (h.setHand _ (hP.back rt htake (h hstarted _ hfits.2)))
  | _ => exact .inr h

theorem Lasting.step (hP : Lasting P) (h : Running s) (hd : Hands P s) {a : Runtime × Act}
    (hstep : s.step a = some s') : s'.logic.finished = true ∨ Hands P s' := by
  cases h.continues hstep with
  | ends hover => exact .inl hover
  | @calls rt c hc =>
    have hidle : Idle { s with pending := none } := { h with pending := nofun, idle := rfl }
    exact (hP.exec hidle (h.pending c hc) rt hd).imp And.left id
  | rests hlogic | asks _ hlogic =>
    right
    rw [Hands, hlogic]
    exact hd
  | waits _ _ _ hwait => exact .inr fun hs => by cases hwait.symm.trans hs
  | deals _ hseats => exact .inr fun _ _ => hP.deal _ (hseats.started.mp rfl)

theorem lasting_ne_nil : Lasting (· ≠ []) where
  deal rt _ hlen _ huid := ne_nil_of_length_eq_add_one (length_dealt rt hlen huid)
  pickUp rt _ more h := rt.sort_ne_nil (append_ne_nil_of_left_ne_nil h more)
  keep _ hkept _ := hkept
  back rt _ _ _ _ htake h := by
    refine rt.sort_ne_nil fun hnil => h ?_
    have hperm := perm_of_takeCards htake
    rw [hnil] at hperm
    exact hperm.symm.eq_nil

end Hands

/-! ### For whom the game waits -/

/-- The turn timer has been set for `uid`, and is still running. -/
def Armed (s : Room) (uid : Uid) : Prop :=
  ∃ k state, s.logic.turnTimer = some k ∧ s.timers[k]? = some ⟨uid, state⟩ ∧ state.live = true

/-- `uid` is to lead, is offline, and has no timer. -/
def Stranded (s : Room) (uid : Uid) : Prop :=
  s.logic.stage = .playing ∧ s.logic.lastPlayed = none ∧ s.logic.turnTimer = none ∧
    s.offline uid = true

/-- A play that is not refused: to pass on something, or to lead the first card. -/
def Moves (l : Logic) (uid : Uid) (ids : List ℤ) : Prop :=
  ids = [] ∧ l.lastPlayed.isNone = false ∨
    l.lastPlayed = none ∧ ids = (l.hand uid).head?.toList.map Card.id

/-- Between two envelopes, somebody acts for the player whose turn it is. -/
def Waits (s : Room) : Prop :=
  s.logic.started = true → ∃ uid, s.logic.currentUID = some uid ∧
    (s.logic.stage = .bidding ∨ s.logic.stage = .playing) ∧ (Armed s uid ∨ Stranded s uid)

end Room

/-- The same for a call that is pending. -/
def Call.Attended (s : Room) : Call → Prop
  | .startBidding | .askBid | .applyBid _ _ => True
  | .finishBidding => s.logic.turnTimer = none
  -- only the first turn of the play may find nothing to beat without being a free lead
  | .nextTurn freeLead => freeLead = false → s.logic.lastPlayed = none → s.logic.turnTimer = none
  | .autoPlay uid freeLead => s.logic.seat = some uid ∧
    (freeLead = s.logic.lastPlayed.isNone ∨ freeLead = false ∧ s.Stranded uid)
  | .applyPlay uid ids => s.logic.seat = some uid ∧
    (s.Armed uid ∨ s.Stranded uid ∨ Room.Moves s.logic uid ids)

namespace Room

/-- Somebody acts for the player whose turn it is, or will be. -/
def Attended (s : Room) : Prop :=
  match s.pending with
  | none => s.Waits
  | some c => c.Attended s

section Calls

variable {s s' : Room}

theorem attended_iff_of_none (hp : s.pending = none) : s.Attended ↔ s.Waits := by
  rw [Attended, hp]

theorem attended_iff_of_some {c : Call} (hp : s.pending = some c) : s.Attended ↔ c.Attended s := by
  rw [Attended, hp]

theorem Waits.attended (h : s.Waits) (hp : s.pending = none) : s.Attended :=
  (attended_iff_of_none hp).mpr h

theorem armed_setTurnTimer (s : Room) (uid : Uid) : Armed (s.setTurnTimer uid) uid := by
  refine ⟨s.timers.length, .armed, rfl, ?_, rfl⟩
  have hlen : (cancel s.timers s.logic.turnTimer).length = s.timers.length := by
    cases s.logic.turnTimer with
    | none => rfl
    | some k => exact length_modify ..
  change (cancel s.timers s.logic.turnTimer ++ [_])[s.timers.length]? = _
  rw [← hlen, getElem?_concat_length]

variable {uid : Uid} {freeLead : Bool}

theorem waits_setTurnTimer (hstage : s.logic.stage = .bidding ∨ s.logic.stage = .playing)
    (hcur : s.logic.currentUID = some uid) : Waits (s.setTurnTimer uid) :=
  fun _ => ⟨uid, hcur, hstage, .inl (armed_setTurnTimer s uid)⟩

theorem waits_of_refused (uid : Uid) (hstage : s.logic.stage = .playing)
    (hseat : s.logic.seat = some uid) (h : Armed s uid ∨ Stranded s uid) : Waits s :=
  fun _ => ⟨uid, (Seats.currentUID_of_playing hstage).trans hseat, .inr hstage, h⟩

/-- **Every call leaves the game with somebody to act, or ends it.** -/
theorem attended_exec (hidle : Idle s) {c : Call} (hfits : c.Fits s.logic) (rt : Runtime)
    (hdealt : Dealt s) (ha : c.Attended s) :
    (s.exec rt c).logic.finished = true ∨ Attended (s.exec rt c) := by
  have hstarted := started_of_fits hidle.seats hfits
  have hdoes := does_exec rt s c
  generalize s.exec rt c = s' at hdoes ⊢
  cases hdoes with
  | panics hr hlog houts hbad => exact absurd hfits (hbad hidle.seats)
  | opens | skips | bids | redeals => exact .inr trivial
  | bidsLast => exact .inr rfl
  | @asks uid huid =>
    have hwaits : Waits ((s.broadcast (.turn uid "" 0)).setTurnTimer uid) :=
      waits_setTurnTimer (.inl hfits) ((Seats.currentUID_of_bidding hfits).trans huid)
    exact .inr (hwaits.attended hidle.idle)
  | @picksUp l hl =>
    refine .inr fun _ _ => ?_
    rcases hl with rfl | ⟨uid, -, rfl⟩ <;> exact ha
  | @turns uid freeLead hseat =>
    have hcur := (Seats.currentUID_of_playing hfits).trans hseat
    have hwaits : Waits ((s.turned uid freeLead).setTurnTimer uid) := by
      cases freeLead <;> exact waits_setTurnTimer (.inr hfits) hcur
    cases freeLead <;> exact .inr (hwaits.attended hidle.idle)
  | @replaces uid freeLead hseat hoff =>
    right
    cases freeLead with
    | true => exact ⟨hseat, .inl rfl⟩
    | false =>
      refine ⟨hseat, ?_⟩
      by_cases hlast : s.logic.lastPlayed = none
      · exact .inr ⟨rfl, hfits, hlast, ha rfl hlast, hoff⟩
      · exact .inl (isNone_eq_false_iff.mpr (isSome_iff_ne_none.mpr hlast)).symm
  | leads =>
    obtain ⟨hseat, ha | ⟨hnot, -⟩⟩ := ha
    · exact .inr ⟨hseat, .inr (.inr (.inr ⟨isNone_iff_eq_none.mp ha.symm, rfl⟩))⟩
    · cases hnot
  | follows =>
    obtain ⟨hseat, ha | ⟨-, hstranded⟩⟩ := ha
    · exact .inr ⟨hseat, .inr (.inr (.inl ⟨rfl, ha.symm⟩))⟩
    · exact .inr ⟨hseat, .inr (.inl hstranded)⟩
  | @nothing uid ids hnothing =>
    obtain ⟨c, hand, hcons⟩ := exists_cons_of_ne_nil (hdealt hstarted uid hfits.2)
    refine .inr ((waits_of_refused uid hfits.1 ha.1 ?_).attended hidle.idle)
    rcases ha.2 with ha | ha | ha
    · exact .inl ha
    · exact .inr ha
    · -- there is something to pass on, or a first card to lead
      rcases hnothing with hnot | ⟨rfl, hlast⟩ | ⟨hids, htake⟩
      · exact absurd (hidle.seats.players ▸ hfits.2) hnot
      · simp [Moves, hlast, hcons] at ha
      · rw [hcons] at htake
        rcases ha with ⟨rfl, -⟩ | ⟨-, rfl⟩
        · exact absurd rfl hids
        · rw [hcons] at htake
          cases (takeCards_head c hand).symm.trans htake
  | passesLast => exact .inr nofun
  | passes hlast => exact .inr fun _ hnone => by cases hlast.symm.trans hnone
  | wins => exact .inl (finished_finish _ _)
  | plays => exact .inr nofun
  | @refuses uid ids selected kept hids htake hnot =>
    obtain ⟨c, hand, hcons⟩ := exists_cons_of_ne_nil (hdealt hstarted uid hfits.2)
    refine .inr (Waits.attended (waits_of_refused uid hfits.1 ha.1 ?_) hidle.idle)
    rcases ha.2 with ha | ha | ⟨rfl, -⟩ | ⟨hlast, rfl⟩
    · exact .inl ha
    · exact .inr ha
    · exact absurd rfl hids
    · -- a first card that is led is not refused
      rw [hcons] at htake
      obtain ⟨rfl, rfl⟩ := Prod.mk.inj (some.inj ((takeCards_head c hand).symm.trans htake))
      exact absurd (by simp [accepts, classify_single, hlast]) hnot

end Calls

/-! ### Steps -/

end Room

/-- Who comes online? -/
def Act.returns : Act → Option Uid
  | .setOnline uid true => some uid
  | _ => none

/-- May the call come to nothing? -/
def Call.idles : Call → Bool
  | .autoPlay _ false | .applyPlay _ _ => true
  | _ => false

namespace Room

/-- `uid` is to lead the first card of the play, without a timer. -/
def ToLead (s : Room) (uid : Uid) : Prop :=
  s.logic.stage = .playing ∧ s.logic.finished = false ∧ s.logic.seat = some uid ∧
    s.logic.lastPlayed = none ∧ s.logic.turnTimer = none ∧ ∀ c ∈ s.pending, c.idles = true

/-- Nobody comes online who is to lead without a timer. -/
def Away (s : Room) (a : Runtime × Act) : Prop := ∀ uid ∈ a.2.returns, ¬ s.ToLead uid

instance (s : Room) (uid : Uid) : Decidable (s.ToLead uid) :=
  inferInstanceAs (Decidable (_ ∧ _ ∧ _ ∧ _ ∧ _ ∧ _))

instance (s : Room) (a : Runtime × Act) : Decidable (Away s a) :=
  inferInstanceAs (Decidable (∀ uid ∈ a.2.returns, _))

/-- A game that runs, with somebody to act for the player whose turn it is. -/
structure Attending (s : Room) : Prop extends Running s where
  dealt : Dealt s
  attended : Attended s

section Steps

variable {s s' : Room} {uid : Uid}

theorem offline_update (s : Room) {u : Uid} {b : Bool} (h : s.offline uid = true)
    (hb : u = uid → b = false) :
    Room.offline { s with online := update s.online u b } uid = true := by
  simp only [Room.offline, Bool.and_eq_true, Bool.not_eq_true'] at h ⊢
  refine ⟨h.1, ?_⟩
  by_cases hu : uid = u
  · rw [hu, update_self]
    exact hb hu.symm
  · rw [update_of_ne hu]
    exact h.2

variable {rt : Runtime} {k : ℕ}

theorem Stranded.setOnline (h : Stranded s uid) (hseat : s.logic.seat = some uid)
    (hfin : s.logic.finished = false) (hidles : ∀ c ∈ s.pending, c.idles = true) {u : Uid}
    {b : Bool} (haway : Away s (rt, .setOnline u b)) :
    Stranded { s with online := update s.online u b } uid := by
  obtain ⟨hstage, hlast, htimer, hoffline⟩ := h
  refine ⟨hstage, hlast, htimer, offline_update s hoffline ?_⟩
  rintro rfl
  by_contra hb
  rw [Bool.not_eq_false] at hb
  subst hb
  exact haway u rfl ⟨hstage, hfin, hseat, hlast, htimer, hidles⟩

theorem Attended.transfer (h : Attended s) (hpending : s'.pending = s.pending)
    (hlogic : s'.logic = s.logic) (harmed : ∀ uid, Armed s uid → Armed s' uid)
    (hstranded : ∀ uid, s.logic.seat = some uid → (∀ c ∈ s.pending, c.idles = true) →
      Stranded s uid → Stranded s' uid) : Attended s' := by
  cases hp : s.pending with
  | none =>
    rw [attended_iff_of_none hp] at h
    rw [attended_iff_of_none (hpending.trans hp), Waits, hlogic]
    intro hstarted
    obtain ⟨uid, hcur, hstage, ha⟩ := h hstarted
    refine ⟨uid, hcur, hstage, ha.imp (harmed uid) fun hs => ?_⟩
    exact hstranded uid ((Seats.currentUID_of_playing hs.1).symm.trans hcur) (by simp [hp]) hs
  | some c =>
    rw [attended_iff_of_some hp] at h
    rw [attended_iff_of_some (hpending.trans hp)]
    cases c with
    | autoPlay uid freeLead =>
      rw [Call.Attended, hlogic]
      refine ⟨h.1, h.2.imp id ?_⟩
      rintro ⟨rfl, hs⟩
      exact ⟨rfl, hstranded uid h.1 (by simp [hp, Call.idles]) hs⟩
    | applyPlay uid ids =>
      rw [Call.Attended, hlogic]
      refine ⟨h.1, h.2.imp (harmed uid) fun hs => hs.imp ?_ id⟩
      exact hstranded uid h.1 (by simp [hp, Call.idles])
    | startBidding | askBid | applyBid => trivial
    | finishBidding | nextTurn =>
      rw [Call.Attended, hlogic]
      exact h

theorem Armed.markTimer (h : Armed s uid) {state : TimerState}
    (hk : s.logic.turnTimer = some k → state.live = true) : Armed (s.markTimer k state) uid := by
  obtain ⟨j, st, htimer, hget, hlive⟩ := h
  by_cases hj : k = j
  · subst hj
    refine ⟨k, state, htimer, ?_, hk htimer⟩
    simp only [Room.markTimer, getElem?_modify_eq, hget]
    rfl
  · refine ⟨j, st, htimer, ?_, hlive⟩
    simp only [Room.markTimer]
    rw [getElem?_modify_ne _ _ hj]
    exact hget

theorem attended_takeOver (hstage : s.logic.stage = .bidding ∨ s.logic.stage = .playing)
    (hcur : s.logic.currentUID = some uid) : Attended (s.takeOver uid) := by
  rw [takeOver]
  rcases hstage with hstage | hstage
  · rw [hstage]
    trivial
  · rw [hstage]
    exact ⟨(Seats.currentUID_of_playing hstage).symm.trans hcur, .inl rfl⟩

/-- The callback of a timer: it acts for the player whose turn it is, or it is not the turn
timer. -/
theorem attended_fire (h : Running s) (hw : Waits s) (hp : s.pending = none)
    (hposted : s.timers[k]? = some ⟨uid, .posted⟩) :
    Attended ((s.markTimer k .done).timeUp uid) := by
  have hstarted : s.logic.started = true := by
    by_contra hnot
    rw [(h.untouched (Bool.eq_false_iff.mpr hnot)).2.2] at hposted
    cases hposted
  obtain ⟨cur, hcur, hstage, ha⟩ := hw hstarted
  have hcur' : (s.markTimer k .done).logic.currentUID = some cur := hcur
  rw [timeUp, hcur']
  dsimp only
  split
  next heq =>
    subst heq
    exact attended_takeOver hstage hcur'
  next hne =>
    refine Waits.attended (fun _ => ⟨cur, hcur, hstage, ha.imp ?_ id⟩) hp
    rintro ⟨j, st, htimer, hget, hlive⟩
    refine Armed.markTimer ⟨j, st, htimer, hget, hlive⟩ fun hk => ?_
    -- the turn timer is that of the player whose turn it is
    obtain rfl : j = k := some.inj (htimer.symm.trans hk)
    rw [hget] at hposted
    exact absurd (congrArg Timer.uid (some.inj hposted)) hne

theorem attended_tick (h : Attended s) (hp : s.pending = none) : Attended s.tick := by
  rw [tick]
  split
  · exact h
  next hrun =>
    rw [not_or, Bool.not_eq_true', Bool.not_eq_false] at hrun
    obtain ⟨cur, hcur, hstage, -⟩ := (attended_iff_of_none hp).mp h hrun.1
    rw [hcur]
    dsimp only
    split
    · exact attended_takeOver hstage hcur
    · exact h

theorem attended_message (h : Attended s) (hp : s.pending = none) (uid : Uid) (req : Request) :
    Attended (s.message uid req) := by
  unfold message
  split
  · exact h
  next hrun =>
    rw [not_or, not_or, Bool.not_eq_true', Bool.not_eq_false] at hrun
    obtain ⟨cur, hcur, -, ha⟩ := (attended_iff_of_none hp).mp h hrun.2.1
    rw [hcur]
    dsimp only
    split
    · exact h
    next heq =>
      rw [not_not] at heq
      subst heq
      split
      · trivial
      next hstage => exact ⟨(Seats.currentUID_of_playing hstage).symm.trans hcur, ha.imp id .inl⟩
      · exact h

theorem attended_of_not_started (hp : s.pending = none) (hstarted : s.logic.started = false) :
    Attended s :=
  (attended_iff_of_none hp).mpr fun hs => by cases hstarted.symm.trans hs

theorem attending_close (h : Attending s) (hp : s.pending = none)
    (hstage : s.logic.stage ≠ .playing) : Attended s.close := by
  have hlogic := logic_close s
  have hsame : s.close.timers = s.timers ∧ s.close.pending = s.pending := by
    rw [close]
    split <;> exact ⟨rfl, rfl⟩
  refine (attended_iff_of_none (hsame.2.trans hp)).mpr ?_
  rw [Waits, hlogic]
  intro hstarted
  obtain ⟨uid, hcur, hs, ha⟩ := (attended_iff_of_none hp).mp h.attended hstarted
  refine ⟨uid, hcur, hs, .inl ?_⟩
  rcases ha with ha | ha
  · rw [Armed, hsame.1, hlogic]
    exact ha
  · exact absurd ha.1 hstage

theorem timer_of_fire (h : s.step (rt, .fire k) = some s') :
    ∃ uid, s.pending = none ∧ s.timers[k]? = some ⟨uid, .posted⟩ ∧
      s' = (s.markTimer k .done).timeUp uid := by
  rcases hp : s.pending with _ | c <;> simp only [step, hp] at h
  · split at h
    next uid hget => exact ⟨uid, rfl, hget, (some.inj h).symm⟩
    · cases h
  · cases h

/-- **Every step leaves somebody to act, or ends the game**, unless somebody returns who is to lead
without a timer. -/
theorem Attending.step (h : Attending s) (hfin : s.logic.finished = false) {a : Runtime × Act}
    (haway : Away s a) (hstep : s.step a = some s') :
    s'.logic.finished = true ∨ Attending s' := by
  rcases h.toRunning.step hstep with hover | hrunning
  · exact .inl hover
  rcases lasting_ne_nil.step h.toRunning h.dealt hstep with hover | hdealt
  · exact .inl hover
  have hattended : s'.logic.finished = true ∨ Attended s' := by
    cases happens_of_step hstep with
    | @call rt c hc =>
      have hidle : Idle { s with pending := none } := { h with pending := nofun, idle := rfl }
      have ha : c.Attended { s with pending := none } := by
        have := (attended_iff_of_some hc).mp h.attended
        cases c <;> exact this
      exact attended_exec hidle (h.pending c hc) rt h.dealt ha
    | setOnline uid online =>
      refine .inr (h.attended.transfer rfl rfl (fun _ ha => ha) ?_)
      exact fun u hseat hidles hs => hs.setOnline hseat hfin hidles haway
    | expire k =>
      refine .inr (h.attended.transfer rfl rfl (fun _ ha => ?_) fun _ _ _ hs => hs)
      exact ha.markTimer fun _ => rfl
    | fire hp k uid =>
      obtain ⟨u, -, hposted, hs'⟩ := timer_of_fire hstep
      rw [hs']
      exact .inr (attended_fire h.toRunning ((attended_iff_of_none hp).mp h.attended) hp hposted)
    | @join rt hp uid =>
      have hjoins := Idle.joins { h with idle := hp } rt uid
      generalize s.join rt uid = s' at hjoins ⊢
      cases hjoins with
      | refused => exact .inr h.attended
      | waits => exact .inr (attended_of_not_started hp rfl)
      | starts => exact .inr trivial
    | leave hp uid =>
      have hleaves := leaves_leave s uid
      generalize s.leave uid = s' at hleaves ⊢
      cases hleaves with
      | refused => exact .inr h.attended
      | rises hopen hmem hover hs' =>
        have hleft : s'.logic = s.logic.rise uid ∧ s'.pending = none := by
          rcases hs' with rfl | rfl
          · exact ⟨rfl, hp⟩
          · refine ⟨logic_close _, ?_⟩
            rw [close]
            split <;> exact hp
        cases hstarted : s.logic.started with
        | true =>
          rw [hleft.1]
          exact .inl (hover hstarted)
        | false => exact .inr (attended_of_not_started hleft.2 (by rw [hleft.1]; exact hstarted))
      | settles hopen hmem hfin hs' => exact .inl (finished_of_left hs')
    | message hp uid req => exact .inr (attended_message h.attended hp uid req)
    | tick hp => exact .inr (attended_tick h.attended hp)
    | timeout hp =>
      by_cases hplay : s.logic.stage ≠ .playing
      · rw [timeout_of_not_playing (.inr hplay)]
        exact .inr (attending_close h hp hplay)
      · exact .inl (h.finished_timeout hfin (not_not.mp hplay))
  exact hattended.imp id fun hnext => { hrunning with dealt := hdealt, attended := hnext }

theorem attending_newRoom (seed : BitVec 64) : Attending (newRoom seed) :=
  { running_newRoom seed with dealt := nofun, attended := nofun }

/-- **The game never waits for a player for whom nobody acts**, if nobody comes online who is to
lead the first card without a timer: the turn timer runs, or the player is offline and the next tick
acts. -/
theorem never_unattended (seed : BitVec 64) {acts : List (Runtime × Act)}
    (hrun : run Room.step (newRoom seed) acts = some s)
    (haway : Along Room.step Away (newRoom seed) acts) (hp : s.pending = none)
    (hstarted : s.logic.started = true) (hfin : s.logic.finished = false) :
    ∃ uid, s.logic.currentUID = some uid ∧ (Armed s uid ∨
      s.logic.turnTimer = none ∧ s.offline uid = true) := by
  have hall : s.logic.finished = true ∨ Attending s :=
    over_or_of_run (fun h hfin ha => h.step hfin ha) (attending_newRoom seed) haway hrun
  have hattending := hall.resolve_left (by rw [hfin]; exact Bool.false_ne_true)
  obtain ⟨uid, hcur, -, ha⟩ := (attended_iff_of_none hp).mp hattending.attended hstarted
  exact ⟨uid, hcur, ha.imp id fun hs => hs.2.2⟩

/-- The first player bids three and is offline when the play begins. -/
def offlineActs : List (Runtime × Act) :=
  [Act.join "a", .join "b", .join "c", .cont, .cont, .message "a" (.call 3), .setOnline "a" false,
    .cont, .cont, .cont, .cont, .cont].map (Runtime.plain, ·)

theorem never_unattended_offline : ∃ s, run Room.step (newRoom 20260923) offlineActs = some s ∧
      ∃ uid, s.logic.currentUID = some uid ∧ (Armed s uid ∨
        s.logic.turnTimer = none ∧ s.offline uid = true) := by
  obtain ⟨s, hrun, hp, hstarted, hfin⟩ := exists_of_run Room.step (newRoom 20260923)
    offlineActs (fun s : Room => s.pending = none ∧ s.logic.started = true ∧
      s.logic.finished = false) (by decide +kernel)
  exact ⟨s, hrun, never_unattended 20260923 hrun (by decide +kernel) hp hstarted hfin⟩

/-- They come back before the next tick; then there is one. -/
def returnedActs : List (Runtime × Act) :=
  offlineActs ++ [Act.setOnline "a" true, .tick].map (Runtime.plain, ·)

/-- It is the turn of a player who is online, and there is no turn timer. -/
theorem waits_unattended : ∃ s,
    run Room.step (newRoom 20260923) returnedActs = some s ∧ s.pending = none ∧
      s.logic.started = true ∧ s.logic.finished = false ∧ s.logic.currentUID = some "a" ∧
      s.logic.turnTimer = none ∧ s.offline "a" = false :=
  exists_of_run _ _ _ _ (by decide +kernel)

end Steps

end Room

end RanGame.Doudizhu
