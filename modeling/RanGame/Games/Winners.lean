import RanGame.Games.Card
import RanGame.Games.QuizTimers
import RanGame.Games.Snake

/-!
# Who the ranking counts for

The end of the room's time ends a game of snake or cards even if it has not started, and whoever
waits for others then wins it. The card game ends its last round without a winner, whatever the
scores are, and the end of its time with the first of those who have the highest score.
-/

namespace RanGame.Games

open Machine List

namespace CardGame

variable {s s' : Room}

theorem leader_mem (l : Logic) : leader l = "" ∨ leader l ∈ l.order := by
  refine foldlRecOn l.players _ (motive := fun best : ℤ × Uid => best.2 = "" ∨
    best.2 ∈ l.order) (.inl rfl) fun best hbest p hp => ?_
  split
  · exact .inr (mem_map_of_mem hp)
  · exact hbest

def Leads (players : List Player) (p : Player) : Prop :=
  p ∈ players ∧ ∀ q ∈ players, q = p ∨ q.score < p.score

theorem foldl_leader {p : Player} {players : List Player}
    (h : ∀ q ∈ players, q = p ∨ q.score < p.score) {best : ℤ × Uid}
    (hbest : best = (↑p.score, p.uid) ∨ best.1 < p.score ∧ p ∈ players) :
    players.foldl (fun (best : ℤ × Uid) q =>
      if (q.score : ℤ) > best.1 then (↑q.score, q.uid) else best) best = (↑p.score, p.uid) := by
  induction players generalizing best with
  | nil => exact hbest.resolve_right fun hlt => not_mem_nil hlt.2
  | cons q players ih =>
    obtain ⟨hq, hrest⟩ := forall_mem_cons.mp h
    refine ih hrest ?_
    dsimp only
    rcases hbest with rfl | ⟨hlt, hmem⟩
    · rw [if_neg]
      · exact .inl rfl
      · rcases hq with rfl | hq <;> omega
    · rcases hq with rfl | hq
      · exact .inl (if_pos hlt)
      · right
        have hne : p ≠ q := by
          rintro rfl
          exact lt_irrefl _ hq
        refine ⟨?_, (mem_cons.mp hmem).resolve_left hne⟩
        split
        · exact Int.ofNat_lt.mpr hq
        · exact hlt

theorem leader_eq {l : Logic} {p : Player} (h : Leads l.players p) : leader l = p.uid := by
  rw [leader, foldl_leader h.2 (.inr ⟨?_, h.1⟩)]
  show (-1 : ℤ) < p.score
  omega

/-- A last round leaves the highest score shared, the end of the time does not. -/
def Decided (a : Act Unit Request) (l' : Logic) : Prop :=
  match a with
  | .leave _ => True
  | .timeout => ∃ p, Leads l'.players p
  | _ => ∀ p, ¬ Leads l'.players p

/-- **The winner of a game of cards** is the player who alone has the highest score of those left,
and nobody if it is shared; the ranking counts for the winner. -/
theorem winner_of_step {maxPlayers : ℕ} {seed : BitVec 64} {acts : List (Act Unit Request)}
    {a : Act Unit Request}
    (hrun : run (game maxPlayers).step (newGame maxPlayers seed) acts = some s)
    (hstep : (game maxPlayers).step s a = some s') (hopen : s.logic.finished = false)
    (hdone : s'.logic.finished = true) (hnamed : "" ∉ s'.logic.order)
    (hdecided : Decided a s'.logic) :
    ∃ res : ResultNtf, s'.accounts = s.accounts ++ settlement res res.winner ∧
      ((∃ p, Leads s'.logic.players p ∧ res.winner = p.uid ∧ res.winner ≠ "") ∨
        (∀ p, ¬ Leads s'.logic.players p) ∧ res.winner = "") := by
  obtain ⟨res, hacc, hwins⟩ : ∃ res : ResultNtf, s'.accounts = s.accounts ++
      settlement res res.winner ∧ Wins a s.logic res res.winner s'.logic := by
    cases (settlesOnce maxPlayers).settles_of_run hrun hstep with
    | nothing hsame =>
      rw [hdone, hopen] at hsame
      cases hsame
    | @game res _ _ _ hacc hw =>
      obtain ⟨rfl, -⟩ := id hw
      exact ⟨res, hacc, hw⟩
  refine ⟨res, hacc, ?_⟩
  have hleads : ∀ p, Leads s'.logic.players p → res.winner = p.uid →
      ∃ p, Leads s'.logic.players p ∧ res.winner = p.uid ∧ res.winner ≠ "" := by
    intro p hp hwinner
    refine ⟨p, hp, hwinner, fun hempty => hnamed ?_⟩
    rw [← hempty, hwinner]
    exact mem_map_of_mem hp.1
  cases a with
  | leave uid =>
    obtain ⟨p, hp, hwinner⟩ := map_eq_singleton_iff.mp hwins.2.2
    refine .inl (hleads p ?_ hwinner.symm)
    rw [hp]
    exact ⟨mem_singleton_self p, fun q hq => .inl (mem_singleton.mp hq)⟩
  | timeout =>
    obtain ⟨p, hp⟩ := hdecided
    exact .inl (hleads p hp (hwins.2.1.trans (leader_eq (hwins.2.2 ▸ hp))))
  | _ => exact .inr ⟨hdecided, hwins.2⟩

/-- Alice and Bob play; Bob leaves. -/
theorem winner_of_step_left : ∃ s s' : Room, run (game 2).step (newGame 2 1)
      [.join "a", .join "b", .message "a" (.play 0)] = some s ∧
    (game 2).step s (.leave "b") = some s' ∧ ∃ res : ResultNtf,
      s'.accounts = s.accounts ++ settlement res res.winner ∧
      ((∃ p, Leads s'.logic.players p ∧ res.winner = p.uid ∧ res.winner ≠ "") ∨
        (∀ p, ¬ Leads s'.logic.players p) ∧ res.winner = "") := by
  obtain ⟨s, s', hrun, hstep, hopen, hdone, hnamed⟩ := exists_of_run_step (game 2).step
    (newGame 2 1) [.join "a", .join "b", .message "a" (.play 0)] (.leave "b")
    (fun s s' : Room => s.logic.finished = false ∧ s'.logic.finished = true ∧
      "" ∉ s'.logic.order) (by decide +kernel)
  exact ⟨s, s', hrun, hstep, winner_of_step hrun hstep hopen hdone hnamed trivial⟩

def allRounds : List (Act Unit Request) :=
  .join "a" :: .join "b" :: (range 5).flatMap fun i =>
    [.message "a" (.play i), .message "b" (.play i)]

/-- Bob has the highest score after the last round, and nobody has won. -/
theorem winner_unnamed : ∃ s : Room, run (game 2).step (newGame 2 20260922) allRounds = some s ∧
    s.logic.scores = [("a", 1), ("b", 4)] ∧ .result ⟨"", 5, [("a", 1), ("b", 4)], false⟩ ∈ s.log :=
  exists_of_run _ _ _ (fun s : Room => s.logic.scores = _ ∧ _ ∈ s.log) (by decide +kernel)

end CardGame

namespace QuizGame

variable {s : Room}

theorem started_next (s : Room) : (next s).logic.started = s.logic.started := by
  rw [next]
  split
  · rfl
  dsimp only
  split
  · rw [logic_finish]
    rfl
  · obtain ⟨qTimer, hlogic⟩ := logic_askQuestion ((s.cancel s.logic.qTimer).setLogic
      { s.logic with qTimer := none, cur := s.logic.cur + 1 })
    rw [hlogic]
    rfl

/-- There are no timers before the game starts. -/
theorem started_of_timer {maxPlayers : ℕ} {acts : List (Act Unit Request)} {k : ℕ} {t : Timer}
    (hrun : run (game maxPlayers).step (newGame maxPlayers) acts = some s)
    (ht : s.timers[k]? = some t) : s.logic.started = true := by
  have hfresh : s.logic.started = true ∨ s.timers = [] := by
    refine invariant_of_run (I := fun s : Room => s.logic.started = true ∨ s.timers = []) ?_
      (.inr rfl) along_true hrun
    intro s a s' hs _ hstep
    have hsome : ∀ {k : ℕ} {t : Timer}, s.timers[k]? = some t → s.logic.started = true := by
      intro k t ht
      refine hs.resolve_right fun hnone => ?_
      rw [hnone] at ht
      cases ht
    cases asks_of_step hstep with
    | same hsame =>
      simp only [clock, Prod.mk.injEq] at hsame
      rw [hsame.1, hsame.2.2.2.1]
      exact hs
    | ends hends => exact .inl hends.started
    | expire ht => exact .inl (hsome ht)
    | fire ht => exact .inl ((started_next _).trans (hsome ht))
    | join uid members =>
      rw [onJoin]
      dsimp only
      split
      · obtain ⟨qTimer, hlogic⟩ := logic_askQuestion _
        rw [hlogic]
        exact .inl rfl
      · exact hs
    | answer uid req hr hclock hstarted =>
      simp only [clock, Prod.mk.injEq] at hclock
      exact .inl ((started_next _).trans (hclock.2.2.2.1.trans hstarted))
  refine hfresh.resolve_right fun hnone => ?_
  rw [hnone] at ht
  cases ht

end QuizGame

/-- What a step adds to the accounts counts only for players of a game that had started. -/
def Ranks {L N R : Type} (started : L → Bool) (order : L → List Uid) (s s' : Room L N R) : Prop :=
  ∃ outs, s'.accounts = s.accounts ++ outs ∧
    ∀ uid, .zIncrBy uid ∈ outs → started s.logic = true ∧ uid ∈ order s'.logic

theorem Room.Settles.ranks {L N R : Type} {finished started : L → Bool} {order : L → List Uid}
    {W : R → Uid → L → Prop} {s s' : Room L N R} (h : Settles finished W s s')
    (hw : ∀ res winner l', W res winner l' →
      winner = "" ∨ started s.logic = true ∧ winner ∈ order l') : Ranks started order s s' := by
  cases h with
  | nothing _ hacc => exact ⟨[], hacc.trans (append_nil _).symm, fun uid huid => by cases huid⟩
  | @game res winner _ _ hacc hwins =>
    refine ⟨_, hacc, fun uid huid => ?_⟩
    rw [settlement] at huid
    split at huid
    · simp at huid
    next hne =>
      obtain rfl : uid = winner := by simpa using huid
      exact (hw _ _ _ hwins).resolve_left hne

/-- **The ranking counts only for players of a game that had started**, if the time of snake or
cards is not up before. -/
theorem ranked_started (maxPlayers : ℕ) (seed : BitVec 64) :
    (∀ acts a (s s' : SnakeGame.Room),
      run (SnakeGame.game maxPlayers).step (SnakeGame.newGame maxPlayers seed) acts = some s →
      (SnakeGame.game maxPlayers).step s a = some s' → (a = .timeout → s.logic.started = true) →
      Ranks SnakeGame.Logic.started SnakeGame.Logic.order s s') ∧
    (∀ acts a (s s' : CardGame.Room),
      run (CardGame.game maxPlayers).step (CardGame.newGame maxPlayers seed) acts = some s →
      (CardGame.game maxPlayers).step s a = some s' → (a = .timeout → s.logic.started = true) →
      Ranks CardGame.Logic.started CardGame.Logic.order s s') ∧
    ∀ acts a (s s' : QuizGame.Room),
      run (QuizGame.game maxPlayers).step (QuizGame.newGame maxPlayers) acts = some s →
      (QuizGame.game maxPlayers).step s a = some s' →
      Ranks QuizGame.Logic.started (·.players.map QuizGame.Player.uid) s s' := by
  refine ⟨fun acts a s s' hrun hstep ha => ?_, fun acts a s s' hrun hstep ha => ?_,
    fun acts a s s' hrun hstep => ?_⟩
  · exact ((SnakeGame.settlesOnce maxPlayers).settles_of_run hrun hstep).ranks
      fun _ _ _ hw => hw.1.imp_right (.intro (hw.2.elim id ha))
  · refine ((CardGame.settlesOnce maxPlayers).settles_of_run hrun hstep).ranks
      fun res winner l' ⟨hres, hw⟩ => ?_
    cases a with
    | leave uid => exact .inr ⟨hw.1, hw.2 ▸ mem_singleton_self winner⟩
    | timeout =>
      rw [hw.1, CardGame.Logic.order, hw.2]
      exact (CardGame.leader_mem s.logic).imp_right (.intro (ha rfl))
    | _ => exact .inl hw
  · refine ((QuizGame.settlesOnce maxPlayers).settles_of_run hrun hstep).ranks
      fun _ _ _ hw => hw.1.imp_right (.intro (hw.2.elim id ?_))
    rintro ⟨k, rfl⟩
    simp only [Game.step] at hstep
    split at hstep
    · exact QuizGame.started_of_timer hrun ‹_›
    · cases hstep

/-- Two players start each game, and one of them leaves. -/
theorem ranked_started_left :
    (∃ s s' : SnakeGame.Room, run (SnakeGame.game 2).step (SnakeGame.newGame 2 1)
        [.join "a", .join "b"] = some s ∧ (SnakeGame.game 2).step s (.leave "b") = some s' ∧
      .zIncrBy "a" ∈ s'.log ∧ Ranks SnakeGame.Logic.started SnakeGame.Logic.order s s') ∧
    (∃ s s' : CardGame.Room, run (CardGame.game 2).step (CardGame.newGame 2 1)
        [.join "a", .join "b"] = some s ∧ (CardGame.game 2).step s (.leave "b") = some s' ∧
      .zIncrBy "a" ∈ s'.log ∧ Ranks CardGame.Logic.started CardGame.Logic.order s s') ∧
    ∃ s s' : QuizGame.Room, run (QuizGame.game 2).step (QuizGame.newGame 2)
        [.join "a", .join "b"] = some s ∧ (QuizGame.game 2).step s (.leave "b") = some s' ∧
      .zIncrBy "a" ∈ s'.log ∧ Ranks QuizGame.Logic.started (·.players.map QuizGame.Player.uid)
        s s' := by
  obtain ⟨hsnake, hcard, hquiz⟩ := ranked_started 2 1
  refine ⟨?_, ?_, ?_⟩
  · obtain ⟨s, s', hrun, hstep, hlog⟩ := exists_of_run_step (SnakeGame.game 2).step
      (SnakeGame.newGame 2 1) [.join "a", .join "b"] (.leave "b")
      (fun _ s' => .zIncrBy "a" ∈ s'.log) (by decide +kernel)
    exact ⟨s, s', hrun, hstep, hlog, hsnake _ _ s s' hrun hstep fun h => by cases h⟩
  · obtain ⟨s, s', hrun, hstep, hlog⟩ := exists_of_run_step (CardGame.game 2).step
      (CardGame.newGame 2 1) [.join "a", .join "b"] (.leave "b")
      (fun _ s' => .zIncrBy "a" ∈ s'.log) (by decide +kernel)
    exact ⟨s, s', hrun, hstep, hlog, hcard _ _ s s' hrun hstep fun h => by cases h⟩
  · obtain ⟨s, s', hrun, hstep, hlog⟩ := exists_of_run_step (QuizGame.game 2).step
      (QuizGame.newGame 2) [.join "a", .join "b"] (.leave "b")
      (fun _ s' => .zIncrBy "a" ∈ s'.log) (by decide +kernel)
    exact ⟨s, s', hrun, hstep, hlog, hquiz _ _ s s' hrun hstep⟩

/-- Alice waits for somebody to play with until the time is up. -/
theorem ranked_waiting :
    (∃ s : SnakeGame.Room, run (SnakeGame.game 2).step (SnakeGame.newGame 2 0)
        [.join "a", .timeout] = some s ∧ s.logic.started = false ∧ .zIncrBy "a" ∈ s.log) ∧
    ∃ s : CardGame.Room, run (CardGame.game 2).step (CardGame.newGame 2 20260922)
        [.join "a", .timeout] = some s ∧ s.logic.started = false ∧ .zIncrBy "a" ∈ s.log :=
  ⟨exists_of_run _ _ _ (fun s : SnakeGame.Room => _ ∧ _) (by decide +kernel),
    exists_of_run _ _ _ (fun s : CardGame.Room => _ ∧ _) (by decide +kernel)⟩

end RanGame.Games
