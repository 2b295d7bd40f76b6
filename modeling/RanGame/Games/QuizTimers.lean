import RanGame.Games.Quiz

/-!
# Which timer closes which question

The last answer to a question cancels its timer; but if that has expired by then, its callback
closes the next question. So what is wanted holds as long as no last answer is taken while a
callback waits. Players are supposed to join before the game starts, since a later join asks the
current question again.
-/

namespace RanGame.Games

open Machine List

def Timer.live (t : Timer) : Bool := t.state = .armed || t.state = .posted

namespace QuizGame

open Games.Room Option

variable {s s' : Room}

/-! ### What concerns the timers -/

/-- The part of a room that the timers have to do with. -/
def clock (s : Room) : List Timer × ℕ × Option ℕ × Bool × Bool :=
  (s.timers, s.logic.cur, s.logic.qTimer, s.logic.started, s.logic.finished)

/-- Only the timer of the current question is live, and none before the game starts. -/
structure Timed (s : Room) : Prop where
  fresh : s.logic.started = false → s.timers = []
  live : s.logic.finished = false → ∀ k t, s.timers[k]? = some t → t.live = true →
    s.logic.qTimer = some k ∧ t.label = s.logic.cur

theorem Timed.of_clock (h : Timed s) (hs : clock s' = clock s) : Timed s' := by
  simp only [clock, Prod.mk.injEq] at hs
  obtain ⟨htimers, hcur, hq, hstarted, hfin⟩ := hs
  refine ⟨fun hf => ?_, fun hf k t ht hlive => ?_⟩
  · rw [htimers]
    exact h.fresh (hstarted ▸ hf)
  · rw [hq, hcur]
    exact h.live (hfin ▸ hf) k t (htimers ▸ ht) hlive

theorem clock_close (s : Room) : clock (s.close onDestroy) = clock s := by
  simp only [clock, timers_close, logic_close]

theorem logic_finish (s : Room) : (finish s).logic = { s.logic with finished := true } :=
  logic_close _ _

theorem getElem?_markTimer {k j : ℕ} {state : TimerState} {u : Timer}
    (h : (s.markTimer k state).timers[j]? = some u) :
    (k = j ∧ u.state = state ∧ ∃ v, s.timers[j]? = some v ∧ v.label = u.label) ∨
      k ≠ j ∧ s.timers[j]? = some u := by
  change (s.timers.modify k _)[j]? = some u at h
  rw [getElem?_modify] at h
  obtain ⟨v, hv, rfl⟩ := map_eq_some_iff.mp h
  by_cases hkj : k = j
  · rw [if_pos hkj]
    exact .inl ⟨hkj, rfl, v, hv, rfl⟩
  · rw [if_neg hkj]
    exact .inr ⟨hkj, hv⟩

theorem logic_askQuestion (s : Room) :
    ∃ qTimer, (askQuestion s).logic = { s.logic with qTimer } := by
  rw [askQuestion]
  dsimp only
  split
  · exact ⟨s.logic.qTimer, rfl⟩
  · exact ⟨_, rfl⟩

theorem timed_askQuestion (hstarted : s.logic.started = true)
    (hdead : ∀ t ∈ s.timers, t.live = false) : Timed (askQuestion s) := by
  refine ⟨fun hf => ?_, fun _ k t ht hlive => ?_⟩
  · obtain ⟨_, hlogic⟩ := logic_askQuestion s
    rw [hlogic] at hf
    cases hstarted.symm.trans hf
  · rw [askQuestion] at ht ⊢
    dsimp only at ht ⊢
    split at ht
    · rw [hdead t (mem_of_getElem? ht)] at hlive
      cases hlive
    · change (s.timers ++ [⟨s.logic.cur, .armed⟩])[k]? = some t at ht
      rw [getElem?_append] at ht
      split at ht
      · rw [hdead t (mem_of_getElem? ht)] at hlive
        cases hlive
      · -- the new timer
        obtain ⟨hk, rfl⟩ : k - s.timers.length = 0 ∧ (⟨s.logic.cur, .armed⟩ : Timer) = t := by
          simpa [getElem?_singleton] using ht
        have hlen : s.timers.length = k := by omega
        exact ⟨congrArg some hlen, rfl⟩

theorem logic_next (hfin : s.logic.finished = false) : (next s).logic.cur = s.logic.cur + 1 ∧
    (next s).logic.players = s.logic.players := by
  rw [next, if_neg (by rw [hfin]; exact Bool.false_ne_true)]
  dsimp only
  split
  · rw [logic_finish]
    exact ⟨rfl, rfl⟩
  · obtain ⟨_, hlogic⟩ := logic_askQuestion ((s.cancel s.logic.qTimer).setLogic
      { s.logic with qTimer := none, cur := s.logic.cur + 1 })
    rw [hlogic]
    exact ⟨rfl, rfl⟩

theorem dead_cancel (h : ∀ k t, s.timers[k]? = some t → t.live = true →
      s.logic.qTimer = some k ∧ t.state = .armed) :
    ∀ t ∈ (s.cancel s.logic.qTimer).timers, t.live = false := by
  intro t ht
  by_contra hlive
  rw [Bool.not_eq_false] at hlive
  obtain ⟨k, hk⟩ := mem_iff_getElem?.mp ht
  cases hq : s.logic.qTimer with
  | none =>
    rw [hq] at hk
    have := (h k t hk hlive).1
    rw [hq] at this
    cases this
  | some j =>
    rw [hq] at hk
    change (s.timers.modify j _)[k]? = some t at hk
    rw [getElem?_modify] at hk
    obtain ⟨u, hu, rfl⟩ := map_eq_some_iff.mp hk
    by_cases hjk : j = k
    · -- the current timer: if it was armed it is cancelled now
      rw [if_pos hjk] at hlive
      split at hlive
      · cases hlive
      next hstate => exact hstate (h k u hu hlive).2
    · rw [if_neg hjk] at hlive
      have hk' := (h k u hu hlive).1
      rw [hq, some.injEq] at hk'
      exact hjk hk'

theorem timed_next (hstarted : s.logic.started = true) (hfin : s.logic.finished = false)
    (h : ∀ k t, s.timers[k]? = some t → t.live = true →
      s.logic.qTimer = some k ∧ t.state = .armed) : Timed (next s) := by
  rw [next, if_neg (by rw [hfin]; exact Bool.false_ne_true)]
  dsimp only
  split
  · refine ⟨fun hf => ?_, fun hf => ?_⟩
    · rw [logic_finish] at hf
      cases hstarted.symm.trans hf
    · rw [logic_finish] at hf
      cases hf
  · exact timed_askQuestion hstarted (dead_cancel h)

/-! ### Callbacks -/

theorem cur_onJoin (uid : Uid) (s : Room) : (onJoin uid s).logic.cur = s.logic.cur := by
  rw [onJoin]
  dsimp only
  split
  · obtain ⟨_, hlogic⟩ := logic_askQuestion _
    rw [hlogic]
    rfl
  · rfl

/-- The game is over, at the same question. -/
structure Ends (s s' : Room) : Prop where
  started : s'.logic.started = true
  finished : s'.logic.finished = true
  cur : s'.logic.cur = s.logic.cur

theorem clock_onLeave (uid : Uid) (s : Room) :
    clock (onLeave uid s) = clock s ∨ Ends s (onLeave uid s) := by
  rw [onLeave]
  dsimp only
  split
  next hend =>
    simp only [Bool.and_eq_true] at hend
    right
    refine ⟨?_, ?_, ?_⟩
    · rw [logic_finish, logic_cancel]
      exact hend.1.1
    · rw [logic_finish]
    · rw [logic_finish, logic_cancel]
      rfl
  · exact .inl rfl

/-- A player leaves: nothing happens to the timers, or the game is over. -/
theorem clock_leave (maxPlayers : ℕ) (s : Room) (uid : Uid) :
    clock ((game maxPlayers).leave s uid) = clock s ∨ Ends s ((game maxPlayers).leave s uid) := by
  rw [Game.leave]
  split
  · exact .inl rfl
  set left := onLeave uid { s with members := s.members.erase uid }
  have hcases : clock left = clock s ∨ Ends s left :=
    (clock_onLeave uid { s with members := s.members.erase uid }).imp id fun hends => { hends with }
  have hclosed : clock (left.close onDestroy) = clock left := clock_close left
  change clock (if left.members = [] then left.close onDestroy else left) = clock s ∨
    Ends s (if left.members = [] then left.close onDestroy else left)
  split
  · refine hcases.imp hclosed.trans fun hends => ?_
    exact ⟨logic_close onDestroy left ▸ hends.started, logic_close onDestroy left ▸ hends.finished,
      logic_close onDestroy left ▸ hends.cur⟩
  · exact hcases

/-- A request leaves the timers alone, or is the last answer and leads to the next question. -/
theorem clock_onMessage (uid : Uid) (req : Request) (s : Room) :
    clock (onMessage uid req s) = clock s ∨
      ∃ r, onMessage uid req s = next r ∧ clock r = clock s ∧ s.logic.started = true ∧
        s.logic.finished = false ∧ r.logic.allAnswered s.logic.cur = true := by
  unfold onMessage
  dsimp only
  split
  · split
    · exact .inl rfl
    rename_i hrunning
    simp only [Bool.or_eq_true, Bool.not_eq_true', not_or, Bool.not_eq_true,
      Bool.not_eq_false] at hrunning
    split
    · exact .inl rfl
    split
    · exact .inl rfl
    split
    next hall => exact .inr ⟨_, rfl, rfl, hrunning.1, hrunning.2, hall⟩
    · exact .inl rfl
  · exact .inl rfl

/-! ### Steps and runs -/

/-- What a step is for the timers: nothing, the end of the game, a timer that expires or fires, a
join, or a last answer. -/
inductive Asks (s : Room) : Act Unit Request → Room → Prop
  | same {a : Act Unit Request} {s' : Room} (h : clock s' = clock s) : Asks s a s'
  | ends {a : Act Unit Request} {s' : Room} (h : Ends s s') : Asks s a s'
  | expire {k : ℕ} {t : Timer} (ht : s.timers[k]? = some t) (hstate : t.state = .armed) :
    Asks s (.expire k) (s.markTimer k .posted)
  | fire {k : ℕ} {t : Timer} (ht : s.timers[k]? = some t) (hstate : t.state = .posted) :
    Asks s (.fire k) (next (s.markTimer k .done))
  | join (uid : Uid) (members : List Uid) : Asks s (.join uid) (onJoin uid { s with members })
  | answer (uid : Uid) (req : Request) {r : Room} (hr : onMessage uid req s = next r)
    (hclock : clock r = clock s) (hstarted : s.logic.started = true)
    (hfin : s.logic.finished = false) (hall : r.logic.allAnswered s.logic.cur = true) :
    Asks s (.message uid req) (next r)

variable {maxPlayers : ℕ} {a : Act Unit Request} {acts : List (Act Unit Request)}

theorem asks_of_step (hstep : (game maxPlayers).step s a = some s') : Asks s a s' := by
  cases a with
  | setOnline | tick =>
    cases hstep
    exact .same rfl
  | expire k =>
    simp only [Game.step] at hstep
    split at hstep <;> cases hstep
    · exact .expire ‹_› rfl
  | fire k =>
    simp only [Game.step] at hstep
    split at hstep <;> cases hstep
    · exact .fire ‹_› rfl
  | join uid =>
    simp only [Game.step, Game.join, some.injEq] at hstep
    split at hstep
    · exact .same (hstep ▸ rfl)
    · exact hstep ▸ .join uid _
  | leave uid =>
    cases hstep
    rcases clock_leave maxPlayers s uid with hsame | hends
    · exact .same hsame
    · exact .ends hends
  | message uid req =>
    simp only [Game.step, some.injEq] at hstep
    split at hstep
    · subst hstep
      rcases clock_onMessage uid req s with hsame | ⟨r, hr, hclock, hstarted, hfin, hall⟩
      · exact .same hsame
      · change Asks s _ (onMessage uid req s)
        rw [hr]
        exact .answer uid req hr hclock hstarted hfin hall
    · exact .same (hstep ▸ rfl)
  | timeout | close =>
    cases hstep
    exact .same (clock_close s)

theorem Ends.timed (h : Ends s s') : Timed s' := by
  refine ⟨fun hf => ?_, fun hf => ?_⟩
  · cases h.started.symm.trans hf
  · cases h.finished.symm.trans hf

theorem Timed.fire (h : Timed s) (hfin : s.logic.finished = false) {k : ℕ} {t : Timer}
    (ht : s.timers[k]? = some t) (hstate : t.state = .posted) :
    s.logic.started = true ∧ t.label = s.logic.cur ∧
      ∀ j u, (s.markTimer k .done).timers[j]? = some u → u.live = true →
        s.logic.qTimer = some j ∧ u.state = .armed := by
  have hlive : t.live = true := by simp [Timer.live, hstate]
  obtain ⟨hq, hlabel⟩ := h.live hfin k t ht hlive
  refine ⟨?_, hlabel, ?_⟩
  · by_contra hstarted
    rw [h.fresh (Bool.not_eq_true _ ▸ hstarted)] at ht
    cases ht
  · -- any other timer that is live would be that of the current question too
    intro j u hu hulive
    rcases getElem?_markTimer hu with ⟨-, hdone, -⟩ | ⟨hkj, hu⟩
    · simp [Timer.live, hdone] at hulive
    · have hj := (h.live hfin j u hu hulive).1
      rw [hq, some.injEq] at hj
      exact absurd hj hkj

/-- No callback waits when all have answered, and nobody joins a game that has started. -/
def Timely (s : Room) : Act Unit Request → Prop
  | .message uid req =>
    (onMessage uid req s).logic.cur ≠ s.logic.cur → ∀ t ∈ s.timers, t.state ≠ .posted
  | .join _ => s.logic.started = false
  | _ => True

instance (s : Room) (a : Act Unit Request) : Decidable (Timely s a) := by
  induction a using Act.casesOn <;> unfold Timely <;> infer_instance

theorem Timed.expire (h : Timed s) {k : ℕ} {t : Timer} (ht : s.timers[k]? = some t)
    (hstate : t.state = .armed) : Timed (s.markTimer k .posted) := by
  refine ⟨fun hf => ?_, fun hf j u hu hulive => ?_⟩
  · rw [h.fresh hf] at ht
    cases ht
  · rcases getElem?_markTimer hu with ⟨rfl, -, v, hv, hlabel⟩ | ⟨-, hu⟩
    · rw [ht, some.injEq] at hv
      subst hv
      exact hlabel ▸ h.live hf k t ht (by simp [Timer.live, hstate])
    · exact h.live hf j u hu hulive

theorem Timed.answer (h : Timed s) (hfin : s.logic.finished = false)
    (hprompt : ∀ t ∈ s.timers, t.state ≠ .posted) :
    ∀ k t, s.timers[k]? = some t → t.live = true → s.logic.qTimer = some k ∧ t.state = .armed := by
  intro k t ht hlive
  refine ⟨(h.live hfin k t ht hlive).1, ?_⟩
  simp only [Timer.live, Bool.or_eq_true, decide_eq_true_eq] at hlive
  exact hlive.resolve_right (hprompt t (mem_of_getElem? ht))

theorem next_of_finished (hfin : s.logic.finished = true) : next s = s := if_pos hfin

/-- **Every timely step keeps the timers in order.** -/
theorem Timed.step (h : Timed s) (ha : Timely s a) (hstep : (game maxPlayers).step s a = some s') :
    Timed s' := by
  cases asks_of_step hstep with
  | same hsame => exact h.of_clock hsame
  | ends hends => exact hends.timed
  | expire ht hstate => exact h.expire ht hstate
  | @fire k t ht hstate =>
    by_cases hfin : s.logic.finished = true
    · have hover : (s.markTimer k .done).logic.finished = true := hfin
      rw [next_of_finished hover]
      refine ⟨fun hf => ?_, fun hf => ?_⟩
      · rw [h.fresh hf] at ht
        cases ht
      · cases hover.symm.trans hf
    · rw [Bool.not_eq_true] at hfin
      obtain ⟨hstarted, -, hlive⟩ := h.fire hfin ht hstate
      exact timed_next hstarted hfin hlive
  | join uid members =>
    have hseated : Timed { s with members } := h.of_clock rfl
    rw [onJoin]
    dsimp only
    split
    · refine timed_askQuestion rfl fun t ht => ?_
      change t ∈ s.timers at ht
      rw [h.fresh ha] at ht
      cases ht
    · exact hseated.of_clock rfl
  | @answer uid req r hr hclock hstarted hfin hall =>
    have hr' : Timed r := h.of_clock hclock
    simp only [clock, Prod.mk.injEq] at hclock
    obtain ⟨htimers, hcur, -, hst, hfi⟩ := hclock
    have hprompt : ∀ t ∈ r.timers, t.state ≠ .posted := by
      rw [htimers]
      refine ha ?_
      rw [hr, (logic_next (hfi.trans hfin)).1, hcur]
      omega
    exact timed_next (hst.trans hstarted) (hfi.trans hfin) (hr'.answer (hfi.trans hfin) hprompt)

theorem cur_of_step (hstep : (game maxPlayers).step s a = some s') :
    s'.logic.cur = s.logic.cur ∨ s'.logic.cur = s.logic.cur + 1 ∧ s.logic.finished = false ∧
      ((∃ uid req, a = .message uid req ∧ ∀ p ∈ s'.logic.players, s.logic.cur ∈ p.answered) ∨
        ∃ k t, a = .fire k ∧ s.timers[k]? = some t ∧ t.state = .posted) := by
  cases asks_of_step hstep with
  | same hsame =>
    simp only [clock, Prod.mk.injEq] at hsame
    exact .inl hsame.2.1
  | ends hends => exact .inl hends.cur
  | expire ht hstate => exact .inl rfl
  | @fire k t ht hstate =>
    by_cases hfin : s.logic.finished = true
    · left
      have hover : (s.markTimer k .done).logic.finished = true := hfin
      rw [next_of_finished hover]
      rfl
    · right
      rw [Bool.not_eq_true] at hfin
      have hopen : (s.markTimer k .done).logic.finished = false := hfin
      exact ⟨(logic_next hopen).1, hfin, .inr ⟨k, t, rfl, ht, hstate⟩⟩
  | join uid members => exact .inl (cur_onJoin uid _)
  | @answer uid req r hr hclock hstarted hfin hall =>
    right
    simp only [clock, Prod.mk.injEq] at hclock
    obtain ⟨-, hcur, -, -, hfi⟩ := hclock
    obtain ⟨hnext, hplayers⟩ := logic_next (hfi.trans hfin)
    refine ⟨by rw [hnext, hcur], hfin, .inl ⟨uid, req, rfl, ?_⟩⟩
    intro p hp
    rw [hplayers] at hp
    exact of_decide_eq_true (all_eq_true.mp hall p hp)

theorem timed_of_run (maxPlayers : ℕ)
    (htimely : Along (game maxPlayers).step Timely (newGame maxPlayers) acts)
    (hrun : run (game maxPlayers).step (newGame maxPlayers) acts = some s) : Timed s := by
  have hnew : Timed (newGame maxPlayers) := ⟨fun _ => rfl, fun _ k t ht => by cases ht⟩
  exact invariant_of_run (fun _ _ _ h ha hstep => h.step ha hstep) hnew htimely hrun

end QuizGame

end RanGame.Games
