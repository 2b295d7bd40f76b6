import RanGame.Doudizhu.Settlement

/-!
# Who sees which cards

A message to a player shows cards of their own hand, the three cards of the landlord to the
landlord, or cards that have been played. The snapshot for a player (`snapshotFor`) depends on the
hands of the others only through their sizes.
-/

namespace RanGame.Doudizhu

open List

def Msg.cards : Msg → List Card
  | .deal hand landlord3 => hand ++ landlord3
  | .played ntf => ntf.cards
  | _ => []

def Out.cardsTo (uid : Uid) : Out → List Card
  | .broadcast msg => msg.cards
  | .push u msg => if u = uid then msg.cards else []
  | _ => []

/-- Does a player see a card: in their hand, of the landlord's three, or played? -/
def Logic.Sees (l : Logic) (uid : Uid) (c : Card) : Prop :=
  c ∈ l.hand uid ∨ uid = l.landlord ∧ c ∈ l.landlord3 ∨
    ∃ last, l.lastPlayed = some last ∧ c ∈ last.cards

structure SnapshotNtf where
  stage : Stage
  landlord : Uid
  curUID : Uid
  baseScore : ℤ
  players : List (Uid × ℕ)
  lastPlayed : Option PlayedNtf
  myHand : List Card
  deriving DecidableEq

/-- `snapshotFor`. It panics with `currentUID`. -/
def snapshotFor (l : Logic) (uid : Uid) : Option SnapshotNtf :=
  l.currentUID.map fun cur =>
    { stage := l.stage, landlord := l.landlord, curUID := cur, baseScore := l.baseScore
      players := l.order.map fun u => (u, (l.hand u).length), lastPlayed := l.lastPlayed
      myHand := if uid ∈ l.players then l.hand uid else [] }

namespace Room

variable {s s' : Room}

def shown (s : Room) (uid : Uid) : List Card := s.log.flatMap (Out.cardsTo uid)

/-- What is shown in the meantime may be known in the end. -/
def Shows (s s' : Room) : Prop :=
  ∀ uid, ∃ cards, s'.shown uid = s.shown uid ++ cards ∧ ∀ c ∈ cards, s'.logic.Sees uid c

theorem shows_of_log (outs : List Out) (hlog : s'.log = s.log ++ outs)
    (h : ∀ o ∈ outs, ∀ uid, ∀ c ∈ o.cardsTo uid, s'.logic.Sees uid c) : Shows s s' := by
  refine fun uid => ⟨outs.flatMap (Out.cardsTo uid), ?_, fun c hc => ?_⟩
  · rw [shown, shown, hlog, flatMap_append]
  · obtain ⟨o, ho, hc⟩ := mem_flatMap.mp hc
    exact h o ho uid c hc

theorem shown_of_course (h : s'.course = s.course) (uid : Uid) : s'.shown uid = s.shown uid := by
  have hshown : ∀ r : Room, r.shown uid = r.course.flatMap (Out.cardsTo uid) := by
    intro r
    rw [shown, course]
    induction r.log with
    | nil => rfl
    | cons o log ih =>
      rw [flatMap_cons, ih, filter_cons]
      cases o with
      | broadcast msg => cases msg <;> rfl
      | _ => rfl
  rw [hshown, hshown, h]

theorem shows_of_course (h : s'.course = s.course) : Shows s s' :=
  fun uid => ⟨[], by rw [shown_of_course h, append_nil], nofun⟩

theorem shows_broadcast {msg : Msg} (hlog : s'.log = s.log ++ [.broadcast msg])
    (h : msg.cards = [] ∨ ∃ ntf, s'.logic.lastPlayed = some ntf ∧ msg.cards = ntf.cards) :
    Shows s s' := by
  refine shows_of_log _ hlog (forall_mem_singleton.mpr fun uid c hc => ?_)
  have hc : c ∈ msg.cards := hc
  rcases h with h | ⟨ntf, hlast, h⟩ <;> rw [h] at hc
  · cases hc
  · exact .inr (.inr ⟨ntf, hlast, hc⟩)

theorem sees_finish {uid : Uid} {c : Card} (h : s.logic.Sees uid c) (win : Bool) :
    (s.finish win).logic.Sees uid c := by
  by_cases hfin : s.logic.finished = true
  · rwa [finish_of_finished hfin]
  · rw [finish_eq (Bool.eq_false_iff.mpr hfin), logic_close]
    exact h

theorem shows_deal (rt : Runtime) (s : Room) : Shows s (s.deal rt) := by
  refine shows_of_log _ rfl fun o ho uid c hc => ?_
  obtain ⟨u, -, ho⟩ := mem_flatMap.mp ho
  split at ho
  · obtain rfl := mem_singleton.mp ho
    rw [Out.cardsTo] at hc
    split at hc
    · subst u
      rw [Msg.cards, append_nil] at hc
      exact .inl hc
    · cases hc
  · cases ho

theorem shows_taken (rt : Runtime) (s : Room) : Shows s (s.taken rt) := by
  refine shows_of_log _ (append_assoc ..) fun o ho uid c hc => ?_
  rcases mem_append.mp ho with ho | ho
  · split at ho
    · obtain rfl := mem_singleton.mp ho
      rw [Out.cardsTo] at hc
      split at hc
      · subst uid
        rcases mem_append.mp hc with hc | hc
        · left
          change c ∈ Function.update s.logic.hand s.logic.maxBidder _ s.logic.maxBidder
          rwa [Function.update_self]
        · exact .inr (.inl ⟨rfl, hc⟩)
      · cases hc
    · cases ho
  · obtain rfl := mem_singleton.mp ho
    cases hc

/-- **Every call shows players only what they may know.** -/
theorem shows_exec (rt : Runtime) (s : Room) (c : Call) : Shows s (s.exec rt c) := by
  have hdoes := does_exec rt s c
  generalize s.exec rt c = s' at hdoes ⊢
  cases hdoes with
  | panics hr hlog houts =>
    refine shows_of_log _ hlog fun o ho uid c hc => ?_
    obtain ⟨ntf, rfl, hntf⟩ := houts o ho
    have hc : c ∈ ntf.cards := hc
    rcases hntf with hntf | hntf
    · rw [hntf] at hc
      cases hc
    · exact .inr (.inr ⟨ntf, hntf, hc⟩)
  | redeals => exact shows_deal rt (s.setLogic s.logic.redeal)
  | picksUp => exact shows_taken rt (s.setLogic _)
  | turns | replaces => exact shows_broadcast rfl (.inl rfl)
  | leads | follows | nothing | refuses => exact shows_of_course rfl
  | @wins uid _ selected =>
    have hplayed : Shows s (s.played rt uid selected []) := shows_broadcast rfl (.inr ⟨_, rfl, rfl⟩)
    intro u
    obtain ⟨cards, hcards, hall⟩ := hplayed u
    refine ⟨cards, ?_, fun c hc => sees_finish (hall c hc) _⟩
    rw [shown_of_course (course_finish _ _), hcards]
  | plays => exact shows_broadcast rfl (.inr ⟨_, rfl, rfl⟩)
  | _ => exact shows_broadcast rfl (.inl rfl)

theorem shows_of_step {a : Runtime × Act} (hstep : s.step a = some s') : Shows s s' := by
  have hprompts : ∀ {r r' : Room}, r.log = s.log → Prompts r r' → Shows s r' := by
    rintro r r' hlog (_ | _ | _) <;> exact shows_of_course (congrArg (filter _) hlog)
  cases happens_of_step hstep with
  | @call rt c hc => exact shows_exec rt { s with pending := none } c
  | setOnline | expire => exact shows_of_course rfl
  | fire hp k uid => exact hprompts (r := s.markTimer k .done) rfl (prompts_timeUp _ uid)
  | message hp uid req => exact hprompts rfl (prompts_message s uid req)
  | tick => exact hprompts rfl (prompts_tick s)
  | @join rt hp uid =>
    rw [join]
    split
    · exact shows_of_course rfl
    · dsimp only
      have hjoined : (s.joined uid true).course = s.course := course_emit _ (by simp [Out.bare])
      split
      · intro u
        obtain ⟨cards, hcards, hall⟩ := shows_deal rt (s.joined uid true) u
        exact ⟨cards, hcards.trans (by rw [shown_of_course hjoined]), hall⟩
      · exact shows_of_course hjoined
  | leave hp uid =>
    have hleft := course_left s uid
    have hleaves := leaves_leave s uid
    generalize s.leave uid = s' at hleaves ⊢
    refine shows_of_course ?_
    cases hleaves with
    | refused => rfl
    | rises hopen hmem hover hs' =>
      rcases hs' with rfl | rfl
      · exact hleft
      · exact (course_close _).trans hleft
    | settles hopen hmem hfin hs' =>
      have hfinish := (course_finish (s.left uid) false).trans hleft
      rcases hs' with rfl | rfl
      · exact hfinish
      · exact (course_close _).trans hfinish
  | timeout =>
    rw [timeout]
    dsimp only
    split
    · exact shows_of_course (course_close s)
    · split
      · exact shows_of_course rfl
      · exact shows_of_course ((course_close _).trans (course_finish _ _))

/-- **Nobody is shown the cards of another player**: each card shown is in their own hand, one of
the landlord's three for the landlord, or of the last accepted play; and the snapshot is the same in
games that look the same to them. -/
theorem cards_kept_secret :
    (∀ {s s' : Room} {a : Runtime × Act}, s.step a = some s' → ∀ uid, ∃ cards,
      s'.shown uid = s.shown uid ++ cards ∧ ∀ c ∈ cards, s'.logic.Sees uid c) ∧
    ∀ {l l' : Logic} {uid : Uid}, uid ∈ l.players → uid ∈ l'.players →
      (l.stage, l.currentUID, l.landlord, l.baseScore, l.lastPlayed, l.hand uid) =
        (l'.stage, l'.currentUID, l'.landlord, l'.baseScore, l'.lastPlayed, l'.hand uid) →
      l.order.map (fun u => (u, (l.hand u).length)) =
        l'.order.map (fun u => (u, (l'.hand u).length)) →
      snapshotFor l uid = snapshotFor l' uid := by
  refine ⟨shows_of_step, fun huid huid' hsame hsizes => ?_⟩
  simp only [Prod.mk.injEq] at hsame
  obtain ⟨hstage, hcur, hlandlord, hbase, hlast, hhand⟩ := hsame
  rw [snapshotFor, snapshotFor, hstage, hcur, hlandlord, hbase, hlast, if_pos huid, if_pos huid',
    hhand, hsizes]

/-- The landlord takes up the three cards, and another hand is turned round. -/
theorem cards_kept_secret_landlord : ∃ s s',
    Machine.run Room.step (newRoom 20260923) (landlordLeaves.take 7) = some s ∧
      s.step (.plain, .cont) = some s' ∧
      (∃ cards, s'.shown "a" = s.shown "a" ++ cards ∧ ∀ c ∈ cards, s'.logic.Sees "a" c) ∧
      snapshotFor s.logic "a" =
        snapshotFor (s.logic.setHand "c" (s.logic.hand "c").reverse) "a" := by
  obtain ⟨s, hrun, hsome, hmem⟩ := Machine.exists_of_run Room.step (newRoom 20260923)
    (landlordLeaves.take 7) (fun s : Room => (s.step (.plain, .cont)).isSome = true ∧
      "a" ∈ s.logic.players) (by decide +kernel)
  obtain ⟨s', hstep⟩ := Option.isSome_iff_exists.mp hsome
  refine ⟨s, s', hrun, hstep, cards_kept_secret.1 hstep "a", cards_kept_secret.2 hmem hmem rfl ?_⟩
  refine map_congr_left fun u _ => ?_
  by_cases hu : u = "c" <;> simp [Logic.setHand, hu]

end Room

end RanGame.Doudizhu
