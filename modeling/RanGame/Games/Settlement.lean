import RanGame.Doudizhu.Settlement
import RanGame.Games.Card
import RanGame.Games.Quiz
import RanGame.Games.Snake

/-!
# Every game is settled at most once

In doudizhu it is `finish` that asks whether the game is over; in the other three games everybody
who calls it does. In the card game one tick plays for every player who is offline, and goes on
after a round that ends the game; but by then nobody is in the room to play for.
-/

namespace RanGame

open Machine

namespace Doudizhu

def Out.isResult : Out → Bool
  | .broadcast (.result _) => true
  | _ => false

def Out.isRecord : Out → Bool
  | .setSync _ => true
  | _ => false

def Out.isPayment : Out → Bool
  | .incrBy _ _ => true
  | _ => false

namespace Room

open List

variable {s s' : Room}

/-- A step of a room, or its end from outside, an envelope like any other. -/
def stepOrClose (s : Room) : Option (Runtime × Act) → Option Room
  | some a => s.step a
  | none => if s.pending.isNone then some s.close else none

def results (s : Room) : ℕ := s.log.countP Out.isResult

def records (s : Room) : ℕ := s.log.countP Out.isRecord

def paid (s : Room) : List Out := s.log.filter Out.isPayment

theorem turn_of_stepOrClose {a : Option (Runtime × Act)} (h : s.stepOrClose a = some s') :
    Once.Turn (fun s : Room => s.logic.finished) accounts (fun outs => ∃ res, outs = settlement res)
      s s' := by
  cases a with
  | some a =>
    rcases settles_of_step h with ⟨hacc, hfin⟩ | hs | ⟨uid, -, -, hs⟩
    · exact .quiet hfin hacc
    all_goals
      obtain ⟨win, hacc⟩ := hs.accounts
      exact .batch hs.unfinished hs.finished ⟨_, rfl⟩ hacc
  | none =>
    obtain ⟨-, ⟨⟩⟩ := Option.ite_none_right_eq_some.mp h
    have hclose := (Steady.refl s).close
    exact .quiet hclose.finished hclose.accounts

theorem filter_log {p : Out → Bool} (hp : ∀ o, p o = true → o.settles = true) (s : Room) :
    s.log.filter p = s.accounts.filter p := by
  rw [accounts, filter_filter]
  refine filter_congr fun o _ => ?_
  cases ho : p o with
  | false => rfl
  | true => rw [hp o ho, Bool.and_self]

theorem settles_of_isResult (o : Out) (h : o.isResult = true) : o.settles = true := by
  unfold Out.isResult at h
  split at h
  · rfl
  · cases h

theorem settles_of_isRecord (o : Out) (h : o.isRecord = true) : o.settles = true := by
  unfold Out.isRecord at h
  split at h
  · rfl
  · cases h

theorem settles_of_isPayment (o : Out) (h : o.isPayment = true) : o.settles = true := by
  unfold Out.isPayment at h
  split at h
  · rfl
  · cases h

theorem filter_payments_eq_nil {p : Out → Bool} (hp : ∀ uid gold, p (.incrBy uid gold) = false)
    (res : ResultNtf) : (payments res).filter p = [] := by
  rw [filter_eq_nil_iff]
  intro o ho
  rcases mem_cons.mp ho with rfl | ho
  · rw [hp]
    exact Bool.false_ne_true
  · obtain ⟨uid, -, rfl⟩ := mem_map.mp ho
    rw [hp]
    exact Bool.false_ne_true

theorem filter_payments (res : ResultNtf) : (payments res).filter Out.isPayment = payments res := by
  rw [filter_eq_self]
  intro o ho
  rcases mem_cons.mp ho with rfl | ho
  · rfl
  · obtain ⟨uid, -, rfl⟩ := mem_map.mp ho
    rfl

theorem counts_of_accounts (h : s.accounts = [] ∨ ∃ res, s.accounts = settlement res) :
    s.results ≤ 1 ∧ s.records ≤ 1 ∧ (s.paid = [] ∨ ∃ res, s.paid = payments res) := by
  rw [results, records, paid, countP_eq_length_filter, countP_eq_length_filter,
    filter_log settles_of_isResult, filter_log settles_of_isRecord, filter_log settles_of_isPayment]
  rcases h with h | ⟨res, h⟩
  · rw [h]
    exact ⟨Nat.zero_le 1, Nat.zero_le 1, .inl rfl⟩
  · have hresult : (settlement res).filter Out.isResult = [.broadcast (.result res)] := by
      rw [settlement, filter_cons_of_pos rfl, filter_append, filter_payments_eq_nil fun _ _ => rfl]
      rfl
    have hrecord : (settlement res).filter Out.isRecord = [.setSync res] := by
      rw [settlement, filter_cons_of_neg Bool.false_ne_true, filter_append,
        filter_payments_eq_nil fun _ _ => rfl]
      rfl
    have hpaid : (settlement res).filter Out.isPayment = payments res := by
      rw [settlement, filter_cons_of_neg Bool.false_ne_true, filter_append, filter_payments]
      exact append_nil _
    rw [h, hresult, hrecord, hpaid]
    exact ⟨le_refl 1, le_refl 1, .inr ⟨res, rfl⟩⟩

theorem counts_of_run {seed : BitVec 64} {acts : List (Option (Runtime × Act))}
    (hrun : run stepOrClose (newRoom seed) acts = some s) :
    s.results ≤ 1 ∧ s.records ≤ 1 ∧ (s.paid = [] ∨ ∃ res, s.paid = payments res) := by
  refine counts_of_accounts ?_
  exact Once.batch_of_run (I := fun _ => True) (fun _ _ _ _ hstep =>
    ⟨turn_of_stepOrClose hstep, trivial⟩) rfl trivial hrun

end Room

end Doudizhu

namespace Games

/-- **Every game is settled at most once**: one result, one record, one point in the ranking, and
gold for one result. -/
theorem settled_at_most_once (maxPlayers : ℕ) (seed : BitVec 64) :
    (∀ (acts : List (Option (Doudizhu.Runtime × Doudizhu.Act))) (s : Doudizhu.Room),
      run Doudizhu.Room.stepOrClose (Doudizhu.newRoom seed) acts = some s →
      s.results ≤ 1 ∧ s.records ≤ 1 ∧ (s.paid = [] ∨ ∃ res, s.paid = Doudizhu.Room.payments res)) ∧
    (∀ (acts : List (Act SnakeGame.Runtime SnakeGame.Request)) (s : SnakeGame.Room),
      run (SnakeGame.game maxPlayers).step (SnakeGame.newGame maxPlayers seed) acts = some s →
      s.results ≤ 1 ∧ s.records ≤ 1 ∧ s.rankings ≤ 1) ∧
    (∀ (acts : List (Act Unit CardGame.Request)) (s : CardGame.Room),
      run (CardGame.game maxPlayers).step (CardGame.newGame maxPlayers seed) acts = some s →
      s.results ≤ 1 ∧ s.records ≤ 1 ∧ s.rankings ≤ 1) ∧
    (∀ (acts : List (Act Unit QuizGame.Request)) (s : QuizGame.Room),
      run (QuizGame.game maxPlayers).step (QuizGame.newGame maxPlayers) acts = some s →
      s.results ≤ 1 ∧ s.records ≤ 1 ∧ s.rankings ≤ 1) := by
  refine ⟨?_, ?_, ?_, ?_⟩
  · intro acts s hrun
    exact Doudizhu.Room.counts_of_run hrun
  · intro acts s hrun
    exact (SnakeGame.settlesOnce maxPlayers).counts_of_run hrun
  · intro acts s hrun
    exact (CardGame.settlesOnce maxPlayers).counts_of_run hrun
  · intro acts s hrun
    exact (QuizGame.settlesOnce maxPlayers).counts_of_run hrun

/-- Somebody leaves each game, which settles it; then the room's time is up. -/
theorem settled_at_most_once_left : (∃ s : Doudizhu.Room,
      run Doudizhu.Room.stepOrClose (Doudizhu.newRoom 1)
        [some (.plain, .join "a"), some (.plain, .join "b"), some (.plain, .join "c"),
          some (.plain, .cont), some (.plain, .cont), some (.plain, .leave "b"),
          some (.plain, .timeout), none] = some s ∧
      s.results = 1 ∧ s.records ≤ 1 ∧ (s.paid = [] ∨ ∃ res, s.paid = Doudizhu.Room.payments res)) ∧
    (∃ s : SnakeGame.Room, run (SnakeGame.game 2).step (SnakeGame.newGame 2 1)
        [.join "a", .join "b", .tick .plain, .leave "a", .timeout] = some s ∧
      s.results = 1 ∧ s.records ≤ 1 ∧ s.rankings ≤ 1) ∧
    (∃ s : CardGame.Room, run (CardGame.game 2).step (CardGame.newGame 2 1)
        [.join "a", .join "b", .message "a" (.play 0), .leave "a", .timeout] = some s ∧
      s.results = 1 ∧ s.records ≤ 1 ∧ s.rankings ≤ 1) ∧
    (∃ s : QuizGame.Room, run (QuizGame.game 2).step (QuizGame.newGame 2)
        [.join "a", .join "b", .expire 0, .leave "a", .fire 0, .timeout] = some s ∧
      s.results = 1 ∧ s.records ≤ 1 ∧ s.rankings ≤ 1) := by
  obtain ⟨hdoudizhu, hsnake, hcard, hquiz⟩ := settled_at_most_once 2 1
  refine ⟨?_, ?_, ?_, ?_⟩
  · exact exists_of_run_and (by decide +kernel) fun s hrun _ => (hdoudizhu _ s hrun).2
  · exact exists_of_run_and (by decide +kernel) fun s hrun _ => (hsnake _ s hrun).2
  · exact exists_of_run_and (by decide +kernel) fun s hrun _ => (hcard _ s hrun).2
  · exact exists_of_run_and (by decide +kernel) fun s hrun _ => (hquiz _ s hrun).2

end Games

end RanGame
