import RanGame.Doudizhu.Seats
import RanGame.Lib.Once
import Mathlib.Tactic.Ring

/-!
# The settlement of a game

`finish` tells the result, pays the gold, stores the result and closes the room, at most once,
whoever calls it. What is paid is worked out from the players who are still there. When a farmer
leaves during play, the landlord pays two stakes and one farmer receives one. And a leaver of either
side lets the farmers win.
-/

namespace RanGame.Doudizhu

open Machine

/-- Is it part of the settlement: the result, a payment, or the record? -/
def Out.settles : Out → Bool
  | .broadcast (.result _) | .incrBy _ _ | .setSync _ => true
  | _ => false

/-- The settlement of a game with this result. -/
def settlement (res : ResultNtf) : List Out :=
  .broadcast (.result res) :: (Room.payments res ++ [.setSync res])

/-- Is it part of the settlement, or about who comes and goes? -/
def Out.bare : Out → Bool
  | .broadcast (.memberChange _ _) | .patch _ => true
  | o => o.settles

def Act.leaver : Act → Option Uid
  | .leave uid => some uid
  | _ => none

/-- Is a player on the side that has lost? -/
def ResultNtf.Lost (res : ResultNtf) (uid : Uid) : Prop :=
  res.landlordWin = false ↔ uid = res.landlord

def Out.gold : Out → ℤ
  | .incrBy _ gold => gold
  | _ => 0

namespace Room

open List

def accounts (s : Room) : List Out := s.log.filter Out.settles

/-- What was told of the course of the game. -/
def course (s : Room) : List Out := s.log.filter (!·.bare)

def gold (s : Room) : ℤ := (s.log.map Out.gold).sum

/-! ### What settles nothing -/

/-- Nothing is settled, and nobody comes or goes. -/
structure Steady (s s' : Room) : Prop where
  accounts : s'.accounts = s.accounts
  finished : s'.logic.finished = s.logic.finished
  started : s'.logic.started = s.logic.started
  players : s'.logic.players = s.logic.players
  order : s'.logic.order = s.logic.order

section Steady

variable {s s' : Room}

theorem Steady.refl (s : Room) : Steady s s := ⟨rfl, rfl, rfl, rfl, rfl⟩

theorem Steady.setLogic (h : Steady s s') {l : Logic}
    (hl : (l.finished, l.started, l.players, l.order) =
      (s'.logic.finished, s'.logic.started, s'.logic.players, s'.logic.order)) :
    Steady s (s'.setLogic l) := by
  simp only [Prod.mk.injEq] at hl
  obtain ⟨hfinished, hstarted, hplayers, horder⟩ := hl
  exact ⟨h.accounts, hfinished.trans h.finished, hstarted.trans h.started,
    hplayers.trans h.players, horder.trans h.order⟩

theorem accounts_emit (s : Room) (outs : List Out) :
    (s.emit outs).accounts = s.accounts ++ outs.filter Out.settles :=
  filter_append ..

theorem Steady.emit (h : Steady s s') {outs : List Out} (ho : ∀ o ∈ outs, o.settles = false) :
    Steady s (s'.emit outs) := by
  have hnone : outs.filter Out.settles = [] :=
    filter_eq_nil_iff.mpr fun o hmem => by simp [ho o hmem]
  refine { h with accounts := ?_ }
  rw [accounts_emit, hnone, append_nil]
  exact h.accounts

theorem Steady.broadcast (h : Steady s s') {msg : Msg}
    (hm : (Out.broadcast msg).settles = false) : Steady s (s'.broadcast msg) :=
  h.emit (forall_mem_singleton.mpr hm)

variable {uid : Uid} {rt : Runtime}

theorem Steady.push (h : Steady s s') {msg : Msg} : Steady s (s'.push uid msg) := by
  refine h.emit fun o ho => ?_
  split at ho
  · rw [mem_singleton.mp ho]
    rfl
  · cases ho

theorem Steady.goto (h : Steady s s') {c : Call} : Steady s (s'.goto c) := { h with }

theorem Steady.panic (h : Steady s s') : Steady s s'.panic := { h with }

theorem Steady.close (h : Steady s s') : Steady s s'.close := by
  rw [Room.close]
  split
  · exact h
  · have hempty : Steady s { s' with closing := true, members := [] } := { h with }
    refine hempty.emit fun o ho => ?_
    obtain ⟨uid, -, rfl⟩ := mem_map.mp ho
    rfl

theorem Steady.deal (h : Steady s s') : Steady s (s'.deal rt) := by
  have hlogic : Steady s (s'.setLogic (dealt rt s'.logic)) := h.setLogic (by rfl)
  refine hlogic.emit fun o ho => ?_
  obtain ⟨uid, -, ho⟩ := mem_flatMap.mp ho
  split at ho
  · rw [mem_singleton.mp ho]
    rfl
  · cases ho

theorem Steady.of_log (outs : List Out) (hlog : s'.log = s.log ++ outs)
    (ho : ∀ o ∈ outs, o.settles = false) (hsame : s'.Same s) : Steady s s' := by
  simp only [Same, Prod.mk.injEq] at hsame
  obtain ⟨hfinished, hstarted, hplayers, horder⟩ := hsame
  refine ⟨?_, hfinished, hstarted, hplayers, horder⟩
  have hemit := ((Steady.refl s).emit ho).accounts
  rwa [Room.accounts, Room.emit, ← hlog] at hemit

theorem Steady.of_broadcast {msg : Msg} (hlog : s'.log = s.log ++ [.broadcast msg])
    (hm : (Out.broadcast msg).settles = false) (hsame : s'.Same s) : Steady s s' :=
  .of_log [.broadcast msg] hlog (forall_mem_singleton.mpr hm) hsame

end Steady

/-! ### What settles the game -/

/-- The game is settled, for the first time, among the `players`. -/
structure Settles (s : Room) (players : List Uid) (s' : Room) : Prop where
  unfinished : s.logic.finished = false
  finished : s'.logic.finished = true
  accounts : ∃ win, s'.accounts = s.accounts ++
    settlement ⟨s.logic.landlord, players.filter (· ≠ s.logic.landlord), win, s.logic.baseScore⟩

section Settles

variable {s s' : Room}

theorem settles_of_mem_settlement {res : ResultNtf} : ∀ o ∈ settlement res, o.settles = true := by
  simp only [settlement, payments, cons_append, mem_cons, mem_append, mem_map, not_mem_nil,
    or_false]
  rintro o (rfl | rfl | ⟨_, -, rfl⟩ | rfl) <;> rfl

/-- The room with the settlement in its log, before it is closed. -/
def ended (s : Room) (win : Bool) : Room :=
  { s with
    timers := cancel s.timers s.logic.turnTimer
    logic := { s.logic with finished := true, turnTimer := none } }.emit
      (settlement (result s.logic win))

theorem finish_eq (hfin : s.logic.finished = false) (win : Bool) :
    s.finish win = (s.ended win).close := by
  rw [finish, if_neg (by rw [hfin]; exact Bool.false_ne_true)]
  simp only [ended, broadcast, emit, settlement, append_assoc, singleton_append]
  rfl

theorem accounts_finish (hfin : s.logic.finished = false) (win : Bool) :
    (s.finish win).accounts = s.accounts ++ settlement (result s.logic win) ∧
      (s.finish win).logic.finished = true := by
  have hsteady : Steady (s.ended win) (s.ended win).close := (Steady.refl _).close
  rw [finish_eq hfin, hsteady.accounts, ended, accounts_emit,
    filter_eq_self.mpr settles_of_mem_settlement]
  exact ⟨rfl, hsteady.finished⟩

theorem settles_finish (hun : s.logic.finished = false) (hacc : s'.accounts = s.accounts)
    (hl : (s'.logic.finished, s'.logic.landlord, s'.logic.baseScore) =
      (s.logic.finished, s.logic.landlord, s.logic.baseScore)) (win : Bool) :
    Settles s s'.logic.players (s'.finish win) := by
  simp only [Prod.mk.injEq] at hl
  obtain ⟨hfin, hlandlord, hbase⟩ := hl
  obtain ⟨haccounts, hdone⟩ := accounts_finish (hfin.trans hun) win
  refine ⟨hun, hdone, win, ?_⟩
  rw [haccounts, hacc, result, hlandlord, hbase]

theorem Settles.close {players : List Uid} (h : Settles s players s') :
    Settles s players s'.close := by
  have hsteady : Steady s' s'.close := (Steady.refl s').close
  refine ⟨h.unfinished, hsteady.finished.trans h.finished, ?_⟩
  rw [hsteady.accounts]
  exact h.accounts

theorem finish_of_finished (h : s.logic.finished = true) (win : Bool) : s.finish win = s := if_pos h

theorem logic_close (s : Room) : s.close.logic = s.logic := by
  rw [close]
  split <;> rfl

theorem finished_finish (s : Room) (win : Bool) : (s.finish win).logic.finished = true := by
  by_cases hfin : s.logic.finished = true
  · rw [finish_of_finished hfin]
    exact hfin
  · exact (settles_finish (Bool.eq_false_iff.mpr hfin) rfl rfl win).finished

theorem settles_exec (rt : Runtime) (c : Call) :
    Steady s (s.exec rt c) ∨ Settles s s.logic.players (s.exec rt c) := by
  have hrefl := Steady.refl s
  have hdoes := does_exec rt s c
  generalize s.exec rt c = s' at hdoes ⊢
  cases hdoes with
  | panics hr hlog houts =>
    refine .inl (Steady.panic (.of_log _ hlog (fun o ho => ?_) hr))
    obtain ⟨ntf, rfl, -⟩ := houts o ho
    rfl
  | redeals => exact .inl (.goto (.deal (.setLogic hrefl (by rfl))))
  | @picksUp l hl =>
    have hforced : Steady s (s.setLogic (l.crown.setHand l.maxBidder
        (rt.sort (l.hand l.maxBidder ++ l.landlord3))).beginPlay) := by
      rcases hl with rfl | ⟨uid, -, rfl⟩ <;> exact hrefl.setLogic rfl
    exact .inl (.goto (.broadcast hforced.push rfl))
  | @turns _ freeLead | @replaces _ freeLead =>
    cases freeLead <;> exact .inl (.of_broadcast rfl rfl rfl)
  | leads | follows => exact .inl hrefl.goto
  | nothing => exact .inl hrefl
  | @wins uid _ selected =>
    have hplay : Steady s (s.played rt uid selected []) := .of_broadcast rfl rfl rfl
    by_cases hfin : s.logic.finished = true
    · left
      rw [finish_of_finished (hplay.finished.trans hfin)]
      exact hplay
    · exact .inr (settles_finish (Bool.eq_false_iff.mpr hfin) hplay.accounts rfl _)
  | refuses => exact .inl (hrefl.setLogic rfl)
  | _ => exact .inl (.of_broadcast rfl rfl rfl)

/-! ### Envelopes -/

theorem Prompts.steady (h : Prompts s s') : Steady s s' := by
  cases h with
  | nothing => exact .refl s
  | call c => exact (Steady.refl s).goto
  | panic => exact (Steady.refl s).panic

theorem settles_timeout (s : Room) : Steady s s.timeout ∨ Settles s s.logic.players s.timeout := by
  have hrefl := Steady.refl s
  rw [timeout]
  dsimp only
  split
  · exact .inl hrefl.close
  next hplay =>
    rw [not_or, Bool.not_eq_true] at hplay
    split
    · exact .inl hrefl.panic
    · exact .inr (settles_finish hplay.1 rfl rfl _).close

theorem accounts_join (s : Room) (rt : Runtime) (uid : Uid) :
    (s.join rt uid).accounts = s.accounts ∧ (s.join rt uid).logic.finished = s.logic.finished := by
  rw [join]
  split
  · exact ⟨rfl, rfl⟩
  · set sat := { s with members := s.members ++ [uid] }.setLogic (s.logic.sit uid) with hsat
    have hjoined : Steady sat (sat.broadcast (.memberChange uid true)) := .broadcast (.refl sat) rfl
    dsimp only
    split
    · have hstart := Steady.refl ((sat.broadcast (.memberChange uid true)).setLogic
        { sat.logic with started := true })
      exact ⟨(hstart.deal.goto).accounts.trans hjoined.accounts,
        (hstart.deal.goto).finished.trans hjoined.finished⟩
    · exact ⟨hjoined.accounts, hjoined.finished⟩

/-- The room without a player, and the others told. -/
def left (s : Room) (uid : Uid) : Room :=
  ({ s with members := s.members.erase uid }.setLogic (s.logic.rise uid)).broadcast
    (.memberChange uid false)

theorem accounts_left (s : Room) (uid : Uid) : (s.left uid).accounts = s.accounts := by
  have hbroadcast : Steady ({ s with members := s.members.erase uid }.setLogic (s.logic.rise uid))
      (s.left uid) := .broadcast (.refl _) rfl
  exact hbroadcast.accounts

theorem course_emit (s : Room) {outs : List Out} (h : ∀ o ∈ outs, o.bare = true) :
    (s.emit outs).course = s.course := by
  have hnone : outs.filter (!·.bare) = [] := filter_eq_nil_iff.mpr fun o ho => by simp [h o ho]
  rw [course, emit, filter_append, hnone, append_nil]
  rfl

theorem course_close (s : Room) : s.close.course = s.course := by
  rw [close]
  split
  · rfl
  · exact course_emit { s with closing := true, members := [] } (by simp [Out.bare])

theorem course_finish (s : Room) (win : Bool) : (s.finish win).course = s.course := by
  by_cases hfin : s.logic.finished = true
  · rw [finish_of_finished hfin]
  · rw [finish_eq (Bool.eq_false_iff.mpr hfin), course_close, ended, course_emit]
    · rfl
    · intro o ho
      have hsettles := settles_of_mem_settlement o ho
      cases o with
      | broadcast msg => cases msg <;> first | exact hsettles | rfl
      | _ => first | exact hsettles | rfl

theorem course_left (s : Room) (uid : Uid) : (s.left uid).course = s.course :=
  course_emit _ (by simp [Out.bare])

/-- What a leave is: refused, a player gets up from a game that does not run, or a running game is
settled among the others. An empty room is closed. -/
inductive Leaves (s : Room) (uid : Uid) : Room → Prop
  | refused : Leaves s uid s
  | rises {s' : Room} (hopen : s.closing = false) (hmem : uid ∈ s.members)
    (hover : s.logic.started = true → s.logic.finished = true)
    (hs' : s' = s.left uid ∨ s' = (s.left uid).close) : Leaves s uid s'
  | settles {s' : Room} (hopen : s.closing = false) (hmem : uid ∈ s.members)
    (hfin : s.logic.finished = false)
    (hs' : s' = (s.left uid).finish false ∨ s' = ((s.left uid).finish false).close) :
    Leaves s uid s'

theorem leaves_leave (s : Room) (uid : Uid) : Leaves s uid (s.leave uid) := by
  by_cases hmem : s.closing = true ∨ uid ∉ s.members
  · rw [leave, if_pos hmem]
    exact .refused
  -- what the room is before it is closed if it is empty
  set r : Room := if s.logic.started && !s.logic.finished then (s.left uid).finish false
    else s.left uid with hr
  have hleave : s.leave uid = if r.members = [] then r.close else r := by
    rw [leave, if_neg hmem]
    rfl
  have hempty : s.leave uid = r ∨ s.leave uid = r.close := by
    rw [hleave]
    split
    · exact .inr rfl
    · exact .inl rfl
  rw [not_or, Bool.not_eq_true, not_not] at hmem
  by_cases hend : (s.logic.started && !s.logic.finished) = true
  · rw [if_pos hend] at hr
    rw [Bool.and_eq_true, Bool.not_eq_true'] at hend
    exact .settles hmem.1 hmem.2 hend.2 (hr ▸ hempty)
  · rw [if_neg hend] at hr
    refine .rises hmem.1 hmem.2 ?_ (hr ▸ hempty)
    intro hstarted
    simpa [hstarted] using hend

theorem finished_of_left {uid : Uid}
    (hs' : s' = (s.left uid).finish false ∨ s' = ((s.left uid).finish false).close) :
    s'.logic.finished = true := by
  rcases hs' with rfl | rfl
  · exact finished_finish _ false
  · rw [logic_close]
    exact finished_finish _ false

theorem settles_of_leaves {uid : Uid} (h : Leaves s uid s') :
    (s'.accounts = s.accounts ∧ s'.logic.finished = s.logic.finished) ∨
      uid ∈ s.members ∧ Settles s (s.logic.players.erase uid) s' := by
  cases h with
  | refused => exact .inl ⟨rfl, rfl⟩
  | rises hopen hmem hover hs' =>
    left
    have hclose := (Steady.refl (s.left uid)).close
    rcases hs' with rfl | rfl
    · exact ⟨accounts_left s uid, rfl⟩
    · exact ⟨hclose.accounts.trans (accounts_left s uid), hclose.finished⟩
  | settles hopen hmem hfin hs' =>
    right
    have hsettles : Settles s (s.logic.players.erase uid) ((s.left uid).finish false) :=
      settles_finish hfin (accounts_left s uid) rfl false
    rcases hs' with rfl | rfl
    · exact ⟨hmem, hsettles⟩
    · exact ⟨hmem, hsettles.close⟩

/-- **A step settles nothing, or the game, for the first time**, among those who are left. -/
theorem settles_of_step {a : Runtime × Act} (h : s.step a = some s') :
    (s'.accounts = s.accounts ∧ s'.logic.finished = s.logic.finished) ∨
      Settles s s.logic.players s' ∨
      ∃ uid ∈ s.members, a.2 = .leave uid ∧ Settles s (s.logic.players.erase uid) s' := by
  -- a step that is one of the parts above, after something that does not concern the settlement
  have hsteady : ∀ {r : Room}, r.accounts = s.accounts → r.logic = s.logic →
      Steady r s' ∨ Settles r r.logic.players s' →
      (s'.accounts = s.accounts ∧ s'.logic.finished = s.logic.finished) ∨
        Settles s s.logic.players s' ∨
        ∃ uid ∈ s.members, a.2 = .leave uid ∧ Settles s (s.logic.players.erase uid) s' := by
    rintro r hacc hlogic (h | h)
    · exact .inl ⟨h.accounts.trans hacc, h.finished.trans (by rw [hlogic])⟩
    · refine .inr (.inl ⟨hlogic ▸ h.unfinished, h.finished, ?_⟩)
      rw [← hacc, ← hlogic]
      exact h.accounts
  cases happens_of_step h with
  | call hc => exact hsteady (r := { s with pending := none }) rfl rfl (settles_exec _ _)
  | setOnline uid online | expire k => exact .inl ⟨rfl, rfl⟩
  | fire hp k uid =>
    exact hsteady (r := s.markTimer k .done) rfl rfl (.inl (prompts_timeUp _ uid).steady)
  | join hp uid => exact .inl (accounts_join s _ uid)
  | leave hp uid =>
    refine (settles_of_leaves (leaves_leave s uid)).imp id fun hleft => .inr ?_
    exact ⟨uid, hleft.1, rfl, hleft.2⟩
  | message hp uid req => exact hsteady rfl rfl (.inl (prompts_message s uid req).steady)
  | tick hp => exact hsteady rfl rfl (.inl (prompts_tick s).steady)
  | timeout hp => exact hsteady rfl rfl (settles_timeout s)

end Settles

/-! ### A game from the first player on -/

/-- What is at stake: the stage of the game, and the stake. -/
def stakes (s : Room) : Stage × ℤ := (s.logic.stage, s.logic.baseScore)

section Stakes

variable {s : Room}

theorem stakes_close (s : Room) : s.close.stakes = s.stakes := by
  rw [stakes, logic_close]
  rfl

theorem stakes_finish (s : Room) (win : Bool) : (s.finish win).stakes = s.stakes := by
  rw [finish]
  split
  · rfl
  · rw [stakes_close]
    rfl

/-- Nothing is at stake before the play begins. -/
def Unstaked (s : Room) : Prop := s.logic.stage ≠ .playing → s.logic.baseScore = 0

theorem Unstaked.of_stakes {s s' : Room} (h : Unstaked s) (hs : s'.stakes = s.stakes) :
    Unstaked s' := by
  rw [stakes, stakes, Prod.mk.injEq] at hs
  rw [Unstaked, hs.1, hs.2]
  exact h

theorem Unstaked.exec (h : Unstaked s) (hidle : Idle s) (rt : Runtime) {c : Call}
    (hfits : c.Fits s.logic) : Unstaked (s.exec rt c) := by
  have hdoes := does_exec rt s c
  generalize s.exec rt c = s' at hdoes ⊢
  cases hdoes with
  | panics hr hlog houts hbad => exact absurd hfits (hbad hidle.seats)
  | opens => exact fun _ => h hfits.2
  | picksUp => exact fun hnot => absurd rfl hnot
  | @turns _ freeLead | @replaces _ freeLead => cases freeLead <;> exact h
  | wins => exact h.of_stakes (stakes_finish _ _)
  | _ => exact h

end Stakes

/-- The players are seated; before the game nobody has bid or played and there is no timer, and
before the play nothing is at stake. -/
structure Running (s : Room) : Prop extends Seated s where
  untouched : s.logic.started = false →
    s.logic.lastPlayed = none ∧ s.logic.maxBidder = "" ∧ s.timers = []
  unstaked : Unstaked s

section Running

variable {s s' : Room}

theorem running_newRoom (seed : BitVec 64) : Running (newRoom seed) :=
  { seated_newRoom seed with
    untouched := fun _ => ⟨rfl, rfl, rfl⟩
    unstaked := fun _ => rfl }

theorem started_of_fits (h : Seats s.logic) {c : Call} (hfits : c.Fits s.logic) :
    s.logic.started = true := by
  by_contra hnot
  have hwaiting := h.waiting (Bool.eq_false_iff.mpr hnot)
  cases c with
  | startBidding => exact hnot hfits.1
  | askBid | finishBidding | nextTurn => cases hwaiting.symm.trans hfits
  | applyBid | autoPlay | applyPlay => cases hwaiting.symm.trans hfits.1

section

variable (h : Running s)

include h

theorem Running.of_prompts (hp : Prompts s s') (hseated : Seated s') : Running s' := by
  cases hp with
  | nothing => exact h
  | call | panic => exact { hseated with untouched := h.untouched, unstaked := h.unstaked }

theorem Running.markTimer (k : ℕ) (state : TimerState) : Running (s.markTimer k state) :=
  { h.toSeated.markTimer k state with
    unstaked := h.unstaked
    untouched := by
      intro hstarted
      obtain ⟨hlast, hbidder, htimers⟩ := h.untouched hstarted
      refine ⟨hlast, hbidder, ?_⟩
      simp only [Room.markTimer, htimers, modify_nil] }

theorem Running.close (hp : s.pending = none) : Running s.close := by
  have hidle : Idle s := { h with idle := hp }
  refine { hidle.close.toSeated with untouched := ?_, unstaked := ?_ }
  · rw [logic_close]
    have htimers : s.close.timers = s.timers := by
      rw [Room.close]
      split <;> rfl
    rw [htimers]
    exact h.untouched
  · exact h.unstaked.of_stakes (stakes_close s)

theorem Running.left (hp : s.pending = none) (hopen : s.closing = false)
    (hstarted : s.logic.started = false) (uid : Uid) : Running (s.left uid) := by
  obtain ⟨hlast, hbidder, htimers⟩ := h.untouched hstarted
  have hwaiting := h.seats.waiting hstarted
  have hlen : s.logic.order.length ≠ 3 := fun hlen => by
    rw [h.seats.started.mpr hlen] at hstarted
    cases hstarted
  have hshort : (s.logic.order.erase uid).length < 3 := by
    have := h.seats.length_le
    have := length_erase_le (a := uid) (l := s.logic.order)
    omega
  exact
    { seats :=
        { h.seats with
          players := congrArg (List.erase · uid) h.seats.players
          nodup := h.seats.nodup.erase uid
          length_le := hshort.le
          started := by
            constructor
            · exact fun hs => by cases hstarted.symm.trans hs
            · exact fun heq => absurd heq hshort.ne
          last := fun ntf hntf => by cases hlast.symm.trans hntf
          landlord := fun hplay => by cases hwaiting.symm.trans hplay
          bidder := .inl hbidder }
      members := fun _ => congrArg (List.erase · uid) (h.members hopen)
      timers := by
        intro t ht
        have hmem : t ∈ s.timers := ht
        rw [htimers] at hmem
        cases hmem
      pending := fun c hc => by cases hp.symm.trans hc
      calm := h.calm
      untouched := fun _ => ⟨hlast, hbidder, htimers⟩
      unstaked := h.unstaked }

theorem Running.of_joins (hp : s.pending = none) {rt : Runtime} {uid : Uid}
    (hjoins : Joins rt s uid s') : Running s' := by
  have hidle : Idle s := { h with idle := hp }
  have hseated := hidle.of_joins hjoins
  cases hjoins with
  | refused => exact h
  | waits hopen hnew hlen =>
    have hwait := h.seats.not_started (by omega)
    exact { hseated with untouched := fun _ => h.untouched hwait, unstaked := h.unstaked }
  | starts hopen hnew hlen => exact { hseated with untouched := nofun, unstaked := h.unstaked }

theorem Running.of_leaves (hp : s.pending = none) {uid : Uid} (hleaves : Leaves s uid s') :
    s'.logic.finished = true ∨ Running s' := by
  cases hleaves with
  | refused => exact .inr h
  | rises hopen hmem hover hs' =>
    by_cases hstarted : s.logic.started = true
    · left
      have hfin := hover hstarted
      rcases hs' with rfl | rfl
      · exact hfin
      · rw [logic_close]
        exact hfin
    · right
      have hleft := h.left hp hopen (Bool.eq_false_iff.mpr hstarted) uid
      rcases hs' with rfl | rfl
      · exact hleft
      · exact hleft.close hp
  | settles hopen hmem hfin hs' => exact .inl (finished_of_left hs')

theorem Running.finished_timeout (hfin : s.logic.finished = false)
    (hplay : s.logic.stage = .playing) : s.timeout.logic.finished = true := by
  have hlandlord : s.logic.landlord ∈ s.logic.players := by
    rw [h.seats.players]
    exact h.seats.landlord hplay
  rw [Room.timeout]
  dsimp only
  rw [if_neg (by simp [hfin, hplay]), if_neg (not_not.mpr hlandlord), logic_close]
  exact finished_finish s _

end

theorem timeout_of_not_playing (h : s.logic.finished = true ∨ s.logic.stage ≠ .playing) :
    s.timeout = s.close :=
  if_pos h

theorem Running.timeout (h : Running s) (hp : s.pending = none) :
    s.timeout.logic.finished = true ∨ Running s.timeout := by
  by_cases hplay : s.logic.finished = true ∨ s.logic.stage ≠ .playing
  · rw [timeout_of_not_playing hplay]
    exact .inr (h.close hp)
  · rw [not_or, Bool.not_eq_true, not_not] at hplay
    exact .inl (h.finished_timeout hplay.1 hplay.2)

/-- **Every step keeps a game running, or ends it.** -/
theorem Running.step (h : Running s) {a : Runtime × Act} (hstep : s.step a = some s') :
    s'.logic.finished = true ∨ Running s' := by
  -- for the steps that are not a leave, the players stay seated
  have hseated : a.2.stays = true → Seated s' := fun hstays => h.toSeated.step hstays hstep
  cases happens_of_step hstep with
  | @call rt c hc =>
    have hidle : Idle { s with pending := none } := { h with pending := nofun, idle := rfl }
    have hfits := h.pending c hc
    rcases settles_exec (s := { s with pending := none }) rt c with hsteady | hsettles
    · right
      have hstarted := started_of_fits h.seats hfits
      have hunstaked : Unstaked { s with pending := none } := h.unstaked
      refine { hseated rfl with
        untouched := fun hnot => ?_, unstaked := hunstaked.exec hidle rt hfits }
      rw [hsteady.started, hstarted] at hnot
      cases hnot
    · exact .inl hsettles.finished
  | setOnline uid online => exact .inr { h with }
  | expire k => exact .inr (h.markTimer k .posted)
  | fire hp k uid =>
    exact .inr ((h.markTimer k .done).of_prompts (prompts_timeUp _ uid) (hseated rfl))
  | join hp uid => exact .inr (h.of_joins hp (Idle.joins { h with idle := hp } _ uid))
  | leave hp uid => exact h.of_leaves hp (leaves_leave s uid)
  | message hp uid req => exact .inr (h.of_prompts (prompts_message s uid req) (hseated rfl))
  | tick hp => exact .inr (h.of_prompts (prompts_tick s) (hseated rfl))
  | timeout hp => exact h.timeout hp

/-- What a step does to a running game: it ends it, performs a call, leaves the game alone, asks for
a call for the current player, leaves the game not started, or starts it. -/
inductive Continues (s : Room) : Room → Prop
  | ends {s' : Room} (hover : s'.logic.finished = true) : Continues s s'
  | calls {rt c} (hc : s.pending = some c) : Continues s (Room.exec rt { s with pending := none } c)
  | rests {s' : Room} (hlogic : s'.logic = s.logic) (hcourse : s'.course = s.course)
    (hp : s'.pending = s.pending) : Continues s s'
  | asks {s' : Room} {c} (hp : s.pending = none) (hlogic : s'.logic = s.logic)
    (hcourse : s'.course = s.course) (hc : s'.pending = some c) (hacts : c.Acts s.logic) :
    Continues s s'
  | waits {s' : Room} (hwait : s.logic.started = false) (hcourse : s'.course = s.course)
    (hsame : (s'.logic.stage, s'.logic.redeals, s'.logic.turnTimer) =
      (s.logic.stage, s.logic.redeals, s.logic.turnTimer))
    (hwait' : s'.logic.started = false) (hp : s'.pending = none) : Continues s s'
  | deals {rt uid} (hwait : s.logic.started = false) (hseats : Seats (s.joined uid true).logic) :
    Continues s (((s.joined uid true).deal rt).goto .startBidding)

theorem Prompts.continues {r : Room} (h : Prompts r s') (hlogic : r.logic = s.logic)
    (hlog : r.log = s.log) (hidle : s.pending = none) (hp : r.pending = none) :
    Continues s s' := by
  have hcourse : r.course = s.course := by rw [course, hlog]; rfl
  cases h with
  | nothing | panic => exact .rests hlogic hcourse (hp.trans hidle.symm)
  | call c hc => exact .asks hidle hlogic hcourse rfl (hlogic ▸ hc)

theorem pending_close (s : Room) : s.close.pending = s.pending := by
  rw [close]
  split <;> rfl

theorem Running.continues (h : Running s) {a : Runtime × Act} (hstep : s.step a = some s') :
    Continues s s' := by
  cases happens_of_step hstep with
  | call hc => exact .calls hc
  | setOnline | expire => exact .rests rfl rfl rfl
  | fire hp k uid => exact (prompts_timeUp _ uid).continues rfl rfl hp hp
  | message hp uid req => exact (prompts_message s uid req).continues rfl rfl hp hp
  | tick hp => exact (prompts_tick s).continues rfl rfl hp hp
  | @join rt hp uid =>
    have hidle : Idle s := { h with idle := hp }
    have hjoins := hidle.joins rt uid
    generalize s.join rt uid = s' at hjoins ⊢
    cases hjoins with
    | refused => exact .rests rfl rfl rfl
    | waits hopen hnew hlen =>
      exact .waits (h.seats.not_started (by omega)) (course_emit _ (by simp [Out.bare])) rfl rfl hp
    | starts hopen hnew hlen =>
      exact .deals (h.seats.not_started (by omega))
        (hidle.joined hopen hnew (by omega) (by simp [hlen])).seats
  | leave hp uid =>
    have hleaves := leaves_leave s uid
    generalize s.leave uid = s' at hleaves ⊢
    cases hleaves with
    | refused => exact .rests rfl rfl rfl
    | rises hopen hmem hover hs' =>
      have hleft : s'.logic = s.logic.rise uid ∧ s'.course = s.course ∧ s'.pending = none := by
        rcases hs' with rfl | rfl
        · exact ⟨rfl, course_left s uid, hp⟩
        · exact ⟨logic_close _, (course_close _).trans (course_left s uid),
            (pending_close _).trans hp⟩
      obtain ⟨hlogic, hcourse, hp'⟩ := hleft
      cases hstarted : s.logic.started with
      | true => exact .ends (by rw [hlogic]; exact hover hstarted)
      | false =>
        exact .waits hstarted hcourse (by rw [hlogic]; rfl) (by rw [hlogic]; exact hstarted) hp'
    | settles hopen hmem hfin hs' => exact .ends (finished_of_left hs')
  | timeout hp =>
    by_cases hplay : s.logic.finished = true ∨ s.logic.stage ≠ .playing
    · rw [timeout_of_not_playing hplay]
      exact .rests (logic_close s) (course_close s) (pending_close s)
    · rw [not_or, Bool.not_eq_true, not_not] at hplay
      exact .ends (h.finished_timeout hplay.1 hplay.2)

theorem finished_of_step {a : Runtime × Act} (hstep : s.step a = some s')
    (hfin : s.logic.finished = true) : s'.logic.finished = true := by
  rcases settles_of_step hstep with ⟨-, hsame⟩ | hs | ⟨uid, -, -, hs⟩
  · exact hsame.trans hfin
  · exact hs.finished
  · exact hs.finished

theorem over_or_of_run {I : Room → Prop} {G : Room → Runtime × Act → Prop}
    (hkeep : ∀ {s a s'}, I s → s.logic.finished = false → G s a → s.step a = some s' →
      s'.logic.finished = true ∨ I s') (hinit : I s) {acts : List (Runtime × Act)}
    (halong : Along Room.step G s acts)
    (hrun : run Room.step s acts = some s') : s'.logic.finished = true ∨ I s' := by
  refine invariant_of_run (I := fun s => s.logic.finished = true ∨ I s) ?_ (.inr hinit) halong hrun
  rintro s a s' hs ha hstep
  cases hfin : s.logic.finished with
  | true => exact .inl (finished_of_step hstep hfin)
  | false => exact hkeep (hs.resolve_left (by simp [hfin])) hfin ha hstep

end Running

/-! ### Gold -/

section Gold

variable {s s' : Room}

theorem gold_eq_zero {o : Out} (h : o.settles = false) : o.gold = 0 := by
  cases o with
  | incrBy uid gold => cases h
  | _ => rfl

theorem gold_eq_accounts (s : Room) : s.gold = (s.accounts.map Out.gold).sum := by
  unfold gold accounts
  induction s.log with
  | nil => rfl
  | cons o log ih =>
    rw [map_cons, sum_cons, ih, filter_cons]
    cases ho : o.settles with
    | true => rfl
    | false =>
      rw [gold_eq_zero ho, zero_add]
      rfl

/-- **What a settlement comes to**: nothing, with two farmers or nothing at stake. -/
theorem gold_settlement (res : ResultNtf) : ((settlement res).map Out.gold).sum =
    (if res.landlordWin then 1 else -1) * res.baseScore * (2 - res.farmers.length) := by
  set sign : ℤ := if res.landlordWin then 1 else -1 with hsign
  have hfarmers : ((res.farmers.map fun f => Out.incrBy f (-sign * res.baseScore)).map
      Out.gold).sum = res.farmers.length * (-sign * res.baseScore) := by
    rw [map_map]
    change (res.farmers.map fun _ => -sign * res.baseScore).sum = _
    rw [map_const', sum_replicate, nsmul_eq_mul]
  have hsum : ((settlement res).map Out.gold).sum = sign * (2 * res.baseScore) +
      ((res.farmers.map fun f => Out.incrBy f (-sign * res.baseScore)).map Out.gold).sum := by
    simp only [settlement, payments, map_cons, map_append, sum_cons,
      sum_append, cons_append, Out.gold, ← hsign, map_nil, sum_nil]
    ring
  rw [hsum, hfarmers]
  ring

theorem length_farmers {l : Logic} (h : Seats l) (hstage : l.stage = .playing) :
    (l.order.filter (· ≠ l.landlord)).length = 2 := by
  have hfilter : l.order.filter (· ≠ l.landlord) = l.order.erase l.landlord := by
    rw [h.nodup.erase_eq_filter]
    exact filter_congr fun uid _ => by simp [bne, Bool.beq_eq_decide_eq]
  rw [hfilter, length_erase_of_mem (h.landlord hstage), h.length_eq (by simp [hstage])]

/-- Only the landlord leaves while the game is being played. -/
def Loyal (s : Room) (a : Runtime × Act) : Prop :=
  ∀ uid ∈ a.2.leaver, uid ∈ s.members → s.logic.stage = .playing → s.logic.finished = false →
    uid = s.logic.landlord

instance (s : Room) (a : Runtime × Act) : Decidable (Loyal s a) :=
  inferInstanceAs (Decidable (∀ uid ∈ a.2.leaver, _))

theorem gold_of_settles (h : Running s) {players : List Uid} (hs : Settles s players s')
    (hplay : s.logic.stage = .playing →
      (players.filter (· ≠ s.logic.landlord)).length = 2) : s'.gold = s.gold := by
  obtain ⟨win, hacc⟩ := hs.accounts
  rw [gold_eq_accounts, gold_eq_accounts, hacc, map_append, sum_append, gold_settlement]
  by_cases hstage : s.logic.stage = .playing
  · rw [hplay hstage]
    simp
  · rw [h.unstaked hstage]
    simp

theorem gold_of_step (h : s.logic.finished = true ∨ Running s) {a : Runtime × Act}
    (hloyal : Loyal s a) (hstep : s.step a = some s') : s'.gold = s.gold := by
  -- a settlement is one of a game that runs
  have hrunning : ∀ {players : List Uid}, Settles s players s' → Running s := by
    intro players hs
    refine h.resolve_left fun hfin => ?_
    rw [hs.unfinished] at hfin
    cases hfin
  rcases settles_of_step hstep with ⟨hacc, -⟩ | hs | ⟨uid, hmem, hleave, hs⟩
  · rw [gold_eq_accounts, gold_eq_accounts, hacc]
  · have hseats := (hrunning hs).seats
    refine gold_of_settles (hrunning hs) hs fun hstage => ?_
    rw [hseats.players]
    exact length_farmers hseats hstage
  · have hseats := (hrunning hs).seats
    refine gold_of_settles (hrunning hs) hs fun hstage => ?_
    -- the farmers are still two when the landlord has left
    rw [hloyal uid (by rw [hleave]; rfl) hmem hstage hs.unfinished, hseats.players,
      ← length_farmers hseats hstage, hseats.nodup.erase_eq_filter, filter_filter]
    congr 1
    exact filter_congr fun uid _ => by simp [bne, Bool.beq_eq_decide_eq]

/-- **The payments of a game sum to zero**, if only the landlord leaves during play. -/
theorem gold_sum_zero (seed : BitVec 64) {acts : List (Runtime × Act)}
    (hrun : run Room.step (newRoom seed) acts = some s)
    (hloyal : Along Room.step Loyal (newRoom seed) acts) : s.gold = 0 := by
  have hboth : (s.logic.finished = true ∨ Running s) ∧ s.gold = 0 := by
    refine invariant_of_run (I := fun s => (s.logic.finished = true ∨ Running s) ∧
      s.gold = 0) ?_ ⟨.inr (running_newRoom seed), rfl⟩ hloyal hrun
    rintro s a s' ⟨h, hgold⟩ hl hstep
    refine ⟨?_, (gold_of_step h hl hstep).trans hgold⟩
    rcases h with hfin | h
    · exact .inl (finished_of_step hstep hfin)
    · exact h.step hstep
  exact hboth.2

def landlordLeaves : List (Runtime × Act) :=
  [Act.join "a", .join "b", .join "c", .cont, .cont, .message "a" (.call 3), .cont, .cont, .cont,
    .leave "a"].map (Runtime.plain, ·)

theorem gold_sum_zero_landlordLeaves : ∃ s,
    run Room.step (newRoom 20260923) landlordLeaves = some s ∧
      s.accounts = settlement ⟨"a", ["b", "c"], false, 3⟩ ∧ s.gold = 0 :=
  exists_of_run_and (by decide +kernel) fun _ hrun _ =>
    gold_sum_zero 20260923 hrun (by decide +kernel)

def farmerLeaves : List (Runtime × Act) :=
  [Act.join "a", .join "b", .join "c", .cont, .cont, .message "a" (.call 3), .cont, .cont, .cont,
    .leave "b"].map (Runtime.plain, ·)

/-- The landlord pays six, and the farmer who is left receives three. -/
theorem gold_sum_farmer_left : ∃ s, run Room.step (newRoom 20260923) farmerLeaves = some s ∧
      s.accounts = [.broadcast (.result ⟨"a", ["c"], false, 3⟩), .incrBy "a" (-6), .incrBy "c" 3,
        .setSync ⟨"a", ["c"], false, 3⟩] ∧ s.gold = -3 :=
  exists_of_run _ _ _ _ (by decide +kernel)

end Gold

end Room

end RanGame.Doudizhu
