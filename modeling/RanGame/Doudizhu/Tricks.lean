import RanGame.Doudizhu.Attended
import Mathlib.Data.List.Chain

/-!
# Tricks

The player of the cards to be beaten sits one seat before the current player, and one more for each
pass. So after two passes it is the turn of the player whom nobody beat. A play that is refused
leaves the game as it was; at most, cards of equal rank change places in the hand. `canBeat` orders
the plays from one deck strictly.
-/

namespace RanGame.Doudizhu

open Function List Machine

namespace Logic

variable {l : Logic}

/-- With nothing to beat nobody has passed; otherwise at most one has, and the last cards were
played as many seats back, and one more. -/
def Trick (l : Logic) : Prop :=
  match l.lastPlayed with
  | none => l.passCount = 0
  | some last => l.passCount ≤ 1 ∧
    l.order[((l.cur - (l.passCount + 1)) % 3).toNat]? = some last.uid

/-- The same with a call pending. After two passes it is the turn of the last cards' player. -/
def TrickAt (l : Logic) : Option Call → Prop
  | some (.nextTurn true) => ∃ last, l.lastPlayed = some last ∧ l.seat = some last.uid
  | some (.autoPlay uid _) | some (.applyPlay uid _) => l.Trick ∧ l.seat = some uid
  | _ => l.Trick

theorem Trick.of_last {last : PlayedNtf} (h : l.Trick) (hlast : l.lastPlayed = some last) :
    l.passCount ≤ 1 ∧ l.order[((l.cur - (l.passCount + 1)) % 3).toNat]? = some last.uid := by
  rwa [Trick, hlast] at h

theorem trick_of_last {last : PlayedNtf} (hlast : l.lastPlayed = some last)
    (h : l.passCount ≤ 1 ∧ l.order[((l.cur - (l.passCount + 1)) % 3).toNat]? = some last.uid) :
    l.Trick := by
  rwa [Trick, hlast]

theorem seat_turnTo {uid : Uid} (h : uid ∈ l.order) : (l.turnTo uid).seat = some uid := by
  have hidx : (l.turnTo uid).cur = l.order.idxOf uid := if_pos h
  rw [seat, hidx, if_neg (by omega)]
  exact getElem?_idxOf h

theorem Trick.ne_seat (h : l.Trick) (hseats : Seats l) {last : PlayedNtf}
    (hlast : l.lastPlayed = some last) {uid : Uid} (hseat : l.seat = some uid)
    (hlen : l.order.length = 3) : last.uid ≠ uid := by
  rintro rfl
  obtain ⟨hcount, howner⟩ := h.of_last hlast
  obtain ⟨hnonneg, hlt⟩ := hseats.cur
  rw [seat, if_neg (by omega), ← howner] at hseat
  have hidx := (getElem?_inj (i := l.cur.toNat) (by omega) hseats.nodup).mp hseat
  omega

end Logic

namespace Room

section Trick

variable {s s' : Room}

/-- **Every call keeps the trick in order, or ends the game.** -/
theorem trick_exec (hidle : Idle s) {c : Call} (hfits : c.Fits s.logic) (rt : Runtime)
    (h : s.logic.stage = .playing → s.logic.TrickAt (some c)) :
    (s.exec rt c).logic.finished = true ∨ ((s.exec rt c).logic.stage = .playing →
      (s.exec rt c).logic.TrickAt (s.exec rt c).pending) := by
  have hthree : s.logic.stage = .playing → s.logic.order.length = 3 :=
    fun hplay => hidle.seats.length_eq (by simp [hplay])
  have hdoes := does_exec rt s c
  generalize s.exec rt c = s' at hdoes ⊢
  cases hdoes with
  | panics hr hlog houts hbad => exact absurd hfits (hbad hidle.seats)
  | opens => exact .inr nofun
  | asks | skips | redeals => exact .inr fun hplay => by cases (hfits : _ = _).symm.trans hplay
  | bidsLast | bids => exact .inr fun hplay => by cases hfits.1.symm.trans hplay
  | picksUp => exact .inr fun _ => rfl
  | @turns uid freeLead =>
    have hp : ((s.turned uid freeLead).setTurnTimer uid).pending = none := hidle.idle
    right
    intro hplay
    rw [hp]
    cases freeLead with
    | true => exact rfl
    | false => exact h hplay
  | @replaces uid freeLead hseat =>
    right
    intro hplay
    cases freeLead with
    | true => exact ⟨rfl, hseat⟩
    | false => exact ⟨h hplay, hseat⟩
  | leads | follows => exact .inr fun hplay => h hplay
  | nothing =>
    right
    intro hplay
    rw [hidle.idle]
    exact (h hplay).1
  | passesLast hlast => exact .inr fun _ => ⟨_, hlast, Logic.seat_turnTo (hidle.seats.last _ hlast)⟩
  | passes hlast hcount =>
    right
    intro hplay
    obtain ⟨-, howner⟩ := (h hplay).1.of_last hlast
    refine Logic.trick_of_last (l := s.logic.countPass.nextSeat) hlast ⟨hcount, ?_⟩
    simp only [Logic.nextSeat, Logic.countPass, hthree hplay]
    rw [← howner]
    congr 2
    push_cast
    omega
  | wins => exact .inl (finished_finish _ _)
  | @plays uid _ selected kept =>
    right
    intro hplay
    have hseat := (h hplay).2
    obtain ⟨hnonneg, hlt⟩ := hidle.seats.cur
    rw [Logic.seat, if_neg (by omega)] at hseat
    refine Logic.trick_of_last (l := (s.played rt uid selected kept).logic.nextSeat) rfl
      ⟨Nat.zero_le 1, ?_⟩
    change s.logic.order[(((s.logic.cur + 1) % s.logic.order.length - (0 + 1)) % 3).toNat]? = _
    rw [hthree hplay, ← hseat]
    congr 2
    push_cast
    omega
  | refuses =>
    right
    intro hplay
    change Logic.TrickAt _ s.pending
    rw [hidle.idle]
    exact (h hplay).1

structure InTrick (s : Room) : Prop extends Running s where
  trick : s.logic.stage = .playing → s.logic.TrickAt s.pending

theorem InTrick.step (h : InTrick s) {a : Runtime × Act} (hstep : s.step a = some s') :
    s'.logic.finished = true ∨ InTrick s' := by
  rcases h.toRunning.step hstep with hover | hrunning
  · exact .inl hover
  refine (?_ : _ ∨ (s'.logic.stage = .playing → s'.logic.TrickAt s'.pending)).imp id
    fun htrick => { hrunning with trick := htrick }
  cases h.continues hstep with
  | ends hover => exact .inl hover
  | @calls rt c hc =>
    have hidle : Idle { s with pending := none } := { h with pending := nofun, idle := rfl }
    exact trick_exec hidle (h.pending c hc) rt fun hplay => hc ▸ h.trick hplay
  | rests hlogic _ hp =>
    right
    rw [hlogic, hp]
    exact h.trick
  | @asks _ c hp hlogic _ hc hacts =>
    right
    rw [hlogic, hc]
    intro hplay
    have htrick := h.trick hplay
    rw [hp] at htrick
    cases c with
    | applyBid => exact htrick
    | autoPlay | applyPlay => exact ⟨htrick, (Seats.currentUID_of_playing hplay).symm.trans hacts.2⟩
    | _ => exact hacts.elim
  | waits _ _ _ hwait =>
    exact .inr fun hplay => by cases (hrunning.seats.waiting hwait).symm.trans hplay
  | deals hwait => exact .inr fun hplay => by cases (h.seats.waiting hwait).symm.trans hplay

theorem message_of_ne {uid cur : Uid} (hcur : s.logic.currentUID = some cur) (hne : uid ≠ cur)
    (req : Request) : s.message uid req = s := by
  unfold message
  rw [hcur]
  dsimp only
  rw [if_pos hne, ite_self]

theorem freeLead_nextTurn (hseats : Seats s.logic) (hplay : s.logic.stage = .playing)
    (rt : Runtime) : (s.exec rt (.nextTurn true)).logic.seat = s.logic.seat ∧
      (s.exec rt (.nextTurn true)).logic.lastPlayed = none ∧
      (s.exec rt (.nextTurn true)).logic.passCount = 0 := by
  have hdoes := does_exec rt s (.nextTurn true)
  generalize s.exec rt (.nextTurn true) = s' at hdoes ⊢
  cases hdoes with
  | panics hr hlog houts hbad => exact absurd hplay (hbad hseats)
  | turns | replaces => exact ⟨rfl, rfl, rfl⟩

end Trick

end Room

/-! ### Plays that are refused -/

/-- Each ID is left over, or one card is taken for it. -/
theorem takeLoop_spec (want : List ℤ) (hand : List Card) :
    (∀ x ∈ want, x ∈ (takeLoop want hand).1 ∨ x ∈ (takeLoop want hand).2.1.map Card.id) ∧
      (takeLoop want hand).2.1.length ≤ want.length ∧ (takeLoop want hand).2.2 <+ hand := by
  induction hand generalizing want with
  | nil => exact ⟨fun x h => .inl h, Nat.zero_le _, .refl _⟩
  | cons c hand ih =>
    rw [takeLoop]
    split
    next hc =>
      obtain ⟨hmem, hlen, hsub⟩ := ih (want.filter (· ≠ c.id))
      have hlt : (want.filter (· ≠ c.id)).length < want.length :=
        length_filter_lt_length_iff_exists.mpr ⟨c.id, hc, by simp⟩
      refine ⟨fun x hx => ?_, Nat.succ_le_of_lt (hlen.trans_lt hlt), hsub.cons c⟩
      by_cases heq : x = c.id
      · exact .inr (mem_map.mpr ⟨c, mem_cons_self, heq.symm⟩)
      · exact (hmem x (mem_filter.mpr ⟨hx, by simpa using heq⟩)).imp id (mem_cons_of_mem _)
    · obtain ⟨hmem, hlen, hsub⟩ := ih want
      exact ⟨hmem, hlen, hsub.cons_cons c⟩

/-- **Cards are taken only for different IDs in the hand**, and the rest stays in order. -/
theorem of_takeCards {hand : List Card} {ids : List ℤ} {taken kept : List Card}
    (h : takeCards hand ids = some (taken, kept)) :
    ids.Nodup ∧ (∀ id ∈ ids, id ∈ hand.map Card.id) ∧ kept <+ hand := by
  have hperm := perm_of_takeCards h
  obtain ⟨hmem, hlen, hsub⟩ := takeLoop_spec ids.dedup hand
  obtain ⟨hall, heq⟩ := Option.ite_none_left_eq_some.mp h
  obtain ⟨hleft, htaken⟩ := not_or.mp hall
  rw [not_not] at hleft htaken
  obtain ⟨rfl, rfl⟩ := Prod.mk.inj (Option.some.inj heq)
  refine ⟨?_, fun id hid => ?_, hsub⟩
  · rw [← dedup_eq_self]
    exact (dedup_sublist ids).eq_of_length_le (htaken ▸ hlen)
  · have hnone := length_eq_zero_iff.mp hleft
    rcases hmem id (mem_dedup.mpr hid) with h | h
    · rw [hnone] at h
      cases h
    · exact (hperm.map Card.id).mem_iff.mp (by rw [map_append]; exact mem_append_right _ h)

theorem lasting_sorted : Room.Lasting (·.Pairwise RankLE) where
  deal rt _ _ _ huid := Piles.assign_of_mem huid _ fun _ _ => rt.sort_sorted _
  pickUp rt _ _ _ := rt.sort_sorted _
  keep htake _ h := h.sublist (of_takeCards htake).2.2
  back rt _ _ _ _ _ _ := rt.sort_sorted _

namespace Room

/-- Why the play of some cards is refused. -/
inductive Refused (rt : Runtime) (l : Logic) (uid : Uid) : List ℤ → Prop
  | notInHand {ids id} (hid : id ∈ ids) (hhand : id ∉ (l.hand uid).map Card.id) :
    Refused rt l uid ids
  | repeated {ids} (hids : ¬ids.Nodup) : Refused rt l uid ids
  | illegal {ids cards kept} (hids : ids ≠ [])
    (htake : takeCards (l.hand uid) ids = some (cards, kept))
    (htype : (classify rt cards).1 = .invalid) : Refused rt l uid ids
  | tooLow {ids cards kept last} (hids : ids ≠ [])
    (htake : takeCards (l.hand uid) ids = some (cards, kept)) (hlast : l.lastPlayed = some last)
    (hother : last.uid ≠ uid) (hbeat : canBeat (classify rt cards).1 (classify rt cards).2
      cards.length last.type (mainRankOf rt last.cards) last.cards.length = false) :
    Refused rt l uid ids
  | freeLead (hlast : l.lastPlayed = none) : Refused rt l uid []

variable {s : Room} {uid : Uid} {ids : List ℤ} {rt : Runtime}

theorem Refused.not_accepts {l : Logic} (h : Refused rt l uid ids) :
    (ids = [] → l.lastPlayed = none) ∧ ∀ {cards kept}, ids ≠ [] →
      takeCards (l.hand uid) ids = some (cards, kept) → ¬accepts rt l uid cards = true := by
  cases h with
  | notInHand hid hhand =>
    exact ⟨fun hnil => absurd (hnil ▸ hid) not_mem_nil,
      fun _ htake _ => hhand ((of_takeCards htake).2.1 _ hid)⟩
  | repeated hids =>
    exact ⟨fun hnil => absurd (hnil ▸ nodup_nil) hids, fun _ htake _ => hids (of_takeCards htake).1⟩
  | illegal hids htake htype =>
    refine ⟨fun hnil => absurd hnil hids, fun _ htake' hok => ?_⟩
    cases htake.symm.trans htake'
    exact of_decide_eq_true (Bool.and_eq_true_iff.mp hok).1 htype
  | tooLow hids htake hlast hother hbeat =>
    refine ⟨fun hnil => absurd hnil hids, fun _ htake' hok => ?_⟩
    cases htake.symm.trans htake'
    rw [accepts, hlast] at hok
    rcases Bool.or_eq_true_iff.mp (Bool.and_eq_true_iff.mp hok).2 with heq | hbeats
    · exact hother (of_decide_eq_true heq)
    · cases hbeat.symm.trans hbeats
  | freeLead hlast => exact ⟨fun _ => hlast, fun hids => absurd rfl hids⟩

/-- **A play that is refused changes nothing** but, at most, the order of equal ranks in the hand.
-/
theorem refused_changes_nothing (seed : BitVec 64) {acts : List (Runtime × Act)}
    (hrun : run Room.step (newRoom seed) acts = some s)
    (hplay : s.logic.stage = .playing) (hfin : s.logic.finished = false) (hp : s.pending = none)
    (hmem : uid ∈ s.members) (hseat : s.logic.seat = some uid) (rt₀ : Runtime)
    (hrefused : Refused rt s.logic uid ids) :
    ∃ hand, run Room.step s [(rt₀, .message uid (.play ids)), (rt, .cont)] =
        some (s.setLogic (s.logic.setHand uid hand)) ∧
      hand.Perm (s.logic.hand uid) ∧ hand.Pairwise RankLE := by
  have hall : s.logic.finished = true ∨ Running s ∧ Hands (·.Pairwise RankLE) s :=
    over_or_of_run (I := fun s => Running s ∧ Hands (·.Pairwise RankLE) s)
      (fun h _ _ hstep => (h.1.step hstep).elim .inl fun hnext =>
        (lasting_sorted.step h.1 h.2 hstep).imp id fun hhands => ⟨hnext, hhands⟩)
      ⟨running_newRoom seed, nofun⟩ along_true hrun
  obtain ⟨h, hhands⟩ := hall.resolve_left (by rw [hfin]; exact Bool.false_ne_true)
  have hstarted := h.seats.started.mpr (h.seats.length_eq (by simp [hplay]))
  have hsorted := hhands hstarted uid (mem_of_seat hseat)
  have hmessage : s.message uid (.play ids) = s.goto (.applyPlay uid ids) := by
    unfold message
    rw [if_neg (by simp [hmem, hstarted, hfin]), Seats.currentUID_of_playing hplay, hseat]
    simp only [ne_eq, not_true_eq_false, if_false, hplay]
  have hidle : ({ s.goto (.applyPlay uid ids) with pending := none } : Room) = s := by
    rw [← hp]
    rfl
  have hsteps : run Room.step s [(rt₀, .message uid (.play ids)), (rt, .cont)] =
      some (s.exec rt (.applyPlay uid ids)) := by
    have hfirst : s.step (rt₀, .message uid (.play ids)) = some (s.goto (.applyPlay uid ids)) := by
      simp only [step, hp, hmessage]
    rw [run_cons, hfirst]
    exact congrArg (fun r : Room => some (r.exec rt (.applyPlay uid ids))) hidle
  rw [hsteps]
  obtain ⟨hnil, hno⟩ := hrefused.not_accepts
  have hdoes := does_exec rt s (.applyPlay uid ids)
  generalize s.exec rt (.applyPlay uid ids) = s' at hdoes ⊢
  cases hdoes with
  | panics hr hlog houts hbad => exact absurd ⟨hplay, mem_of_seat hseat⟩ (hbad h.seats)
  | nothing =>
    refine ⟨s.logic.hand uid, ?_, .refl _, hsorted⟩
    rw [Logic.setHand, update_eq_self]
    rfl
  | passesLast hlast | passes hlast => cases (hnil rfl).symm.trans hlast
  | wins hids htake hok | plays hids htake _ hok => exact absurd hok (hno hids htake)
  | refuses hids htake =>
    exact ⟨_, rfl, (rt.sort_perm _).trans (perm_of_takeCards htake), rt.sort_sorted _⟩

theorem refused_changes_nothing_repeated : ∃ s hand,
    run Room.step (newRoom 20260923) (firstTurns.take 9) = some s ∧
      run Room.step s [(.plain, .message "a" (.play [104, 104])), (.plain, .cont)] =
        some (s.setLogic (s.logic.setHand "a" hand)) ∧
      hand.Perm (s.logic.hand "a") ∧ hand.Pairwise RankLE := by
  obtain ⟨s, hrun, hplay, hfin, hp, hmem, hseat⟩ := exists_of_run Room.step
    (newRoom 20260923) (firstTurns.take 9) (fun s : Room => s.logic.stage = .playing ∧
      s.logic.finished = false ∧ s.pending = none ∧ "a" ∈ s.members ∧ s.logic.seat = some "a")
    (by decide +kernel)
  have hrefused : Refused .plain s.logic "a" [104, 104] := .repeated (by decide)
  obtain ⟨hand, h⟩ := refused_changes_nothing 20260923 hrun hplay hfin hp hmem hseat .plain hrefused
  exact ⟨s, hand, hrun, h⟩

end Room

/-! ### The order of plays -/

/-- Cards put down together, and how the maps were iterated by `classify`. -/
structure Play where
  cards : List Card
  rt : Runtime

namespace Play

/-- `canBeat`, for what the plays were classified as. -/
def Beats (new last : Play) : Prop :=
  canBeat (classify new.rt new.cards).1 (classify new.rt new.cards).2 new.cards.length
    (classify last.rt last.cards).1 (classify last.rt last.cards).2 last.cards.length = true

variable {a b c : Play}

instance : IsTrans Play Beats where
  trans a b c h h' := by
    unfold Beats canBeat at *
    grind

theorem Beats.rockets (h : a.Beats b) (h' : b.Beats a) :
    (classify a.rt a.cards).1 = .rocket ∧ (classify b.rt b.cards).1 = .rocket := by
  unfold Beats canBeat at *
  grind

theorem mem_keys_bump {q r : ℤ} {m : RankCounts} (h : q ∈ (m.bump r).map Prod.fst) :
    q = r ∨ q ∈ m.map Prod.fst := by
  induction m with
  | nil => simpa [RankCounts.bump] using h
  | cons e m ih =>
    rw [RankCounts.bump] at h
    split at h
    · exact .inr h
    · rcases mem_cons.mp h with h | h
      · exact .inr (mem_cons.mpr (.inl h))
      · exact (ih h).imp_right (mem_cons_of_mem _)

theorem mem_of_rankCounts {q : ℤ} {cards : List Card} (h : q ∈ (rankCounts cards).map Prod.fst) :
    ∃ c ∈ cards, c.rank = q := by
  have hfold : ∀ m : RankCounts, q ∈ (cards.foldl (fun m c => m.bump c.rank) m).map Prod.fst →
        q ∈ m.map Prod.fst ∨ ∃ c ∈ cards, c.rank = q := by
    clear h
    induction cards with
    | nil => exact fun m h => .inl h
    | cons c cards ih =>
      intro m h
      rcases ih _ h with h | ⟨d, hd, hq⟩
      · rcases mem_keys_bump h with hq | h
        · exact .inr ⟨c, mem_cons_self, hq.symm⟩
        · exact .inl h
      · exact .inr ⟨d, mem_cons_of_mem _ hd, hq⟩
  exact (hfold [] h).resolve_left not_mem_nil

theorem ne_rocket_of_tripleWith {rt : Runtime} {m : RankCounts} {k : ℕ} {play : PlayType × ℤ}
    (h : tripleWith rt m k = some play) : play.1 ≠ .rocket := by
  obtain ⟨e, -, he⟩ := exists_of_findSome?_eq_some h
  dsimp only at he
  split at he
  · split at he
    · exact Option.some.inj he ▸ nofun
    · exact Option.some.inj he ▸ nofun
    · split at he
      · exact Option.some.inj he ▸ nofun
      · cases he
    · cases he
  · cases he

theorem joker_mem {rt : Runtime} {cards : List Card} (hdeck : ∀ c ∈ cards, c ∈ fullDeck)
    (h : (classify rt cards).1 = .rocket) : (⟨0, 16, 0⟩ : Card) ∈ cards := by
  have hcount : (rankCounts cards).count 16 ≠ 0 := by
    cases cards with
    | nil => cases h
    | cons first rest =>
      rw [classify] at h
      dsimp only at h
      split at h
      next hrocket =>
        simp only [Bool.and_eq_true, decide_eq_true_eq] at hrocket
        omega
      · split at h
        · cases h
        · generalize htriple : (if _ ≥ 3 then tripleWith _ _ _ else none) = triple at h
          split at h
          · cases h
          · cases h
          · refine absurd h (ne_rocket_of_tripleWith (Option.ite_none_right_eq_some.mp htriple).2)
          · split_ifs at h
  have hkey : (16 : ℤ) ∈ (rankCounts cards).map Prod.fst := by
    cases hlookup : (rankCounts cards).lookup 16 with
    | none =>
      rw [RankCounts.count, hlookup] at hcount
      exact absurd rfl hcount
    | some k =>
      obtain ⟨l, l', heq, -⟩ := lookup_eq_some_iff.mp hlookup
      simp [heq]
  obtain ⟨c, hc, hrank⟩ := mem_of_rankCounts hkey
  have hjoker : ∀ c ∈ fullDeck, c.rank = 16 → c = ⟨0, 16, 0⟩ := by decide
  exact hjoker c (hdeck c hc) hrank ▸ hc

theorem Beats.asymm (ha : ∀ c ∈ a.cards, c ∈ fullDeck) (hb : ∀ c ∈ b.cards, c ∈ fullDeck)
    (hdisjoint : a.cards.Disjoint b.cards) (h : a.Beats b) : ¬ b.Beats a := by
  intro h'
  obtain ⟨hra, hrb⟩ := h.rockets h'
  exact hdisjoint (joker_mem ha hra) (joker_mem hb hrb)

/-- **Plays from one deck are strictly ordered**, so a play beats all before it in its trick. -/
theorem beats_strict :
    (∀ a b : Play, (∀ c ∈ a.cards, c ∈ fullDeck) → (∀ c ∈ b.cards, c ∈ fullDeck) →
      a.cards.Disjoint b.cards → a.Beats b → ¬ b.Beats a) ∧
    (∀ a b c : Play, a.Beats b → b.Beats c → a.Beats c) ∧
    ∀ trick : List Play, (∀ a ∈ trick, ∀ c ∈ a.cards, c ∈ fullDeck) →
      trick.Pairwise (fun a b => a.cards.Disjoint b.cards) →
      trick.IsChain (fun last new => new.Beats last) →
      trick.Pairwise fun last new => new.Beats last ∧ ¬ last.Beats new := by
  refine ⟨fun a b ha hb hdisjoint h => h.asymm ha hb hdisjoint, IsTrans.trans,
    fun trick hdeck hdisjoint hchain => ?_⟩
  have hpair : trick.Pairwise (swap Beats) := IsChain.pairwise hchain
  refine (hpair.and hdisjoint).imp_of_mem fun {last new} hlast hnew h => ?_
  exact ⟨h.1, h.1.asymm (hdeck new hnew) (hdeck last hlast) h.2.symm⟩

theorem beats_strict_two : ¬ Beats ⟨[⟨0, 3, -1⟩], .plain⟩ ⟨[⟨2, 9, -1⟩], .plain⟩ :=
  beats_strict.1 ⟨[⟨2, 9, -1⟩], .plain⟩ ⟨[⟨0, 3, -1⟩], .plain⟩ (by decide) (by decide) (by simp)
    (show canBeat _ _ _ _ _ _ = true by decide +kernel)

end Play

end RanGame.Doudizhu
