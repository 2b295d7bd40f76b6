import RanGame.Doudizhu.Settlement

/-!
# Turn timers that come too late

Cancelling a timer does not take its callback out of the mailbox. The callback knows for whom the
timer was armed, but not for which turn, so it is harmless only if it runs before that player's next
turn. It also acts in a game that is over; and after a leave it may panic.
-/

namespace RanGame.Doudizhu

def Out.turn : Out → Option Uid
  | .broadcast (.turn uid _ _) => some uid
  | _ => none

/-- Does it act in the turn that has been announced, and may it come to nothing? -/
def Call.reacts : Call → Bool
  | .autoPlay _ _ | .applyPlay _ _ => true
  | _ => false

namespace Room

open List Machine

/-- The players whose turns have been announced, in order. -/
def turns (s : Room) : List Uid := s.log.filterMap Out.turn

/-- Will a turn be announced before the next envelope is taken? -/
def announcing (s : Room) : Bool :=
  match s.pending with
  | some c => !c.reacts
  | none => false

theorem announcing_of_pending {s : Room} {c : Call} (h : s.pending = some c) :
    s.announcing = !c.reacts := by rw [announcing, h]

theorem turns_emit (s : Room) (outs : List Out) :
    (s.emit outs).turns = s.turns ++ outs.filterMap Out.turn := filterMap_append ..

theorem turns_emit_of_none (s : Room) {outs : List Out} (h : ∀ o ∈ outs, o.turn = none) :
    (s.emit outs).turns = s.turns := by
  rw [turns_emit, filterMap_eq_nil_iff.mpr h, append_nil]

theorem turns_goto (s : Room) (c : Call) : (s.goto c).turns = s.turns := rfl

theorem turns_of_course {s s' : Room} (h : s'.course = s.course) : s'.turns = s.turns := by
  have hturns : ∀ r : Room, r.turns = r.course.filterMap Out.turn := by
    intro r
    rw [turns, course, filterMap_filter]
    refine filterMap_congr fun o _ => ?_
    cases o with
    | broadcast msg => cases msg <;> rfl
    | _ => rfl
  rw [hturns, hturns, h]

theorem turns_deal (s : Room) (rt : Runtime) : (s.deal rt).turns = s.turns := by
  rw [deal, turns_emit_of_none]
  · rfl
  · intro o ho
    obtain ⟨uid, -, ho⟩ := mem_flatMap.mp ho
    split at ho
    · rw [mem_singleton.mp ho]
      rfl
    · cases ho

/-- What a call does to the turns. -/
inductive Turns (s : Room) (c : Call) (s' : Room) : Prop
  /-- The turn of `uid` is announced. -/
  | announces (uid : Uid) (hturns : s'.turns = s.turns ++ [uid])
    (hcur : s'.logic.currentUID = some uid)
  /-- It leads to a call that announces a turn. -/
  | goesOn (hturns : s'.turns = s.turns) (hannounces : s'.announcing = true)
  /-- It stays the same player's turn. -/
  | stays (hreacts : c.reacts = true) (hturns : s'.turns = s.turns)
    (htimer : s'.logic.turnTimer = s.logic.turnTimer)
    (hcur : s'.logic.currentUID = s.logic.currentUID) (hstage : s'.logic.stage = s.logic.stage)
  | ends (hfinished : s'.logic.finished = true)

section Turns

variable {s : Room}

/-- **A call announces a turn, leads to one that does, or leaves the turn alone.** -/
theorem turns_exec (h : Idle s) {c : Call} (hfits : c.Fits s.logic) (rt : Runtime) :
    Turns s c (s.exec rt c) := by
  have hdoes := does_exec rt s c
  generalize s.exec rt c = s' at hdoes ⊢
  cases hdoes with
  | panics hr hlog houts hbad => exact absurd hfits (hbad h.seats)
  | @asks uid huid | @skips uid huid =>
    exact .announces uid (turns_emit _ _) ((Seats.currentUID_of_bidding hfits).trans huid)
  | redeals =>
    refine .goesOn ?_ rfl
    rw [turns_goto, turns_deal]
    rfl
  | picksUp =>
    refine .goesOn ?_ rfl
    rw [turns_goto, taken, broadcast, turns_emit_of_none _ (forall_mem_singleton.mpr rfl),
      push, turns_emit_of_none]
    · rfl
    · intro o ho
      split at ho
      · rw [mem_singleton.mp ho]
        rfl
      · cases ho
  | @turns uid freeLead hseat | @replaces uid freeLead hseat =>
    have hcur := (Seats.currentUID_of_playing hfits).trans hseat
    cases freeLead <;> exact .announces uid (turns_emit _ _) hcur
  | leads | follows | nothing | refuses => exact .stays rfl rfl rfl rfl rfl
  | wins => exact .ends (finished_finish _ _)
  | _ => exact .goesOn (turns_emit_of_none s (forall_mem_singleton.mpr rfl)) rfl

end Turns

/-! ### Steps -/

/-- The player whose turn it is has been announced last. -/
def Announced (s : Room) : Prop :=
  s.announcing = false → s.logic.stage = .bidding ∨ s.logic.stage = .playing →
    s.turns.getLast? = s.logic.currentUID

/-- Timer `k` is still the turn timer, or a turn has been announced after the first `n`, or will be
next. -/
def Since (k n : ℕ) (s : Room) : Prop :=
  s.logic.turnTimer = some k ∨ n < s.turns.length ∨ s.announcing = true

section Steps

variable {s s' : Room} {k n : ℕ}

theorem Announced.of_turns (h : Announced s) {c : Call} (hc : s.pending = some c)
    (ht : Turns { s with pending := none } c s') :
    s'.logic.finished = true ∨ Announced s' := by
  cases ht with
  | announces uid hturns hcur =>
    right
    intro _ _
    rw [hturns, hcur, getLast?_concat]
  | goesOn hturns hannounces =>
    right
    intro hnot
    rw [hannounces] at hnot
    cases hnot
  | stays hreacts hturns htimer hcur hstage =>
    right
    intro _ hs
    have hquiet : s.announcing = false := by
      rw [announcing_of_pending hc, hreacts]
      rfl
    rw [hturns, hcur]
    rw [hstage] at hs
    exact h hquiet hs
  | ends hfinished => exact .inl hfinished

theorem Since.of_turns (h : Since k n s) (hle : n ≤ s.turns.length) {c : Call}
    (hc : s.pending = some c) (ht : Turns { s with pending := none } c s') :
    s'.logic.finished = true ∨ Since k n s' ∧ n ≤ s'.turns.length := by
  cases ht with
  | announces uid hturns hcur =>
    right
    have hlt : n < s'.turns.length := by
      rw [hturns, length_append]
      exact Nat.lt_add_one_of_le hle
    exact ⟨.inr (.inl hlt), hlt.le⟩
  | goesOn hturns hannounces =>
    right
    refine ⟨.inr (.inr hannounces), ?_⟩
    rw [hturns]
    exact hle
  | stays hreacts hturns htimer hcur hstage =>
    right
    have hlen : s'.turns.length = s.turns.length := by rw [hturns]; rfl
    refine ⟨?_, by rw [hlen]; exact hle⟩
    rcases h with h | h | h
    · exact .inl (htimer.trans h)
    · exact .inr (.inl (by rw [hlen]; exact h))
    · rw [announcing_of_pending hc, hreacts] at h
      cases h
  | ends hfinished => exact .inl hfinished

/-- A step that is no call announces nothing, and leaves turn and timer, or the game has not begun.
-/
structure Keeps (s s' : Room) : Prop where
  turns : s'.turns = s.turns
  timer : s'.logic.turnTimer = s.logic.turnTimer
  stage : s'.logic.stage = s.logic.stage
  cur : s.logic.stage = .bidding ∨ s.logic.stage = .playing →
    s'.logic.currentUID = s.logic.currentUID

theorem Keeps.of_logic (hturns : s'.turns = s.turns) (hlogic : s'.logic = s.logic) : Keeps s s' :=
  ⟨hturns, by rw [hlogic], by rw [hlogic], fun _ => by rw [hlogic]⟩

theorem Keeps.of_waiting (hwaiting : s.logic.stage = .waiting) (hturns : s'.turns = s.turns)
    (hl : (s'.logic.turnTimer, s'.logic.stage) = (s.logic.turnTimer, s.logic.stage)) :
    Keeps s s' := by
  simp only [Prod.mk.injEq] at hl
  refine ⟨hturns, hl.1, hl.2, ?_⟩
  rintro (hs | hs) <;> cases hwaiting.symm.trans hs

theorem keeps_of_step (h : Running s) {a : Runtime × Act} (hstep : s.step a = some s') :
    (∃ c, s.pending = some c ∧ Turns { s with pending := none } c s') ∨
      Keeps s s' ∧ (s.pending = none ∨ s'.pending = s.pending) ∨ s'.logic.finished = true := by
  have hnone : s.logic.started = false → s.pending = none := by
    intro hwait
    refine Option.eq_none_iff_forall_not_mem.mpr fun c hc => ?_
    cases hwait.symm.trans (started_of_fits h.seats (h.pending c hc))
  cases h.continues hstep with
  | ends hover => exact .inr (.inr hover)
  | @calls rt c hc =>
    have hidle : Idle { s with pending := none } := { h with pending := nofun, idle := rfl }
    exact .inl ⟨c, hc, turns_exec hidle (h.pending c hc) rt⟩
  | rests hlogic hcourse hp =>
    exact .inr (.inl ⟨.of_logic (turns_of_course hcourse) hlogic, .inr hp⟩)
  | asks hp hlogic hcourse =>
    exact .inr (.inl ⟨.of_logic (turns_of_course hcourse) hlogic, .inl hp⟩)
  | waits hwait hcourse hsame =>
    simp only [Prod.mk.injEq] at hsame
    exact .inr (.inl ⟨.of_waiting (h.seats.waiting hwait) (turns_of_course hcourse)
      (by rw [hsame.1, hsame.2.2]), .inl (hnone hwait)⟩)
  | @deals rt uid hwait =>
    refine .inr (.inl ⟨.of_waiting (h.seats.waiting hwait) ?_ rfl, .inl (hnone hwait)⟩)
    rw [turns_goto, turns_deal]
    exact turns_emit_of_none _ (forall_mem_singleton.mpr rfl)

theorem Announced.of_keeps (h : Announced s) (hk : Keeps s s')
    (hp : s.pending = none ∨ s'.pending = s.pending) : Announced s' := by
  intro hquiet hs
  rw [hk.stage] at hs
  have hbefore : s.announcing = false := by
    rcases hp with hp | hp
    · rw [announcing, hp]
    · rwa [announcing, hp] at hquiet
  rw [hk.turns, hk.cur hs]
  exact h hbefore hs

theorem Since.of_keeps (h : Since k n s) (hk : Keeps s s')
    (hp : s.pending = none ∨ s'.pending = s.pending) : Since k n s' := by
  rcases h with h | h | h
  · exact .inl (hk.timer.trans h)
  · exact .inr (.inl (by rw [hk.turns]; exact h))
  · rcases hp with hp | hp
    · rw [announcing, hp] at h
      cases h
    · exact .inr (.inr (by rw [announcing, hp]; exact h))

/-- A game that runs, with every turn announced. -/
structure Called (s : Room) : Prop extends Running s where
  announced : Announced s

theorem Called.step (h : Called s) {a : Runtime × Act} (hstep : s.step a = some s') :
    s'.logic.finished = true ∨ Called s' := by
  rcases h.toRunning.step hstep with hfin | hrunning
  · exact .inl hfin
  rcases keeps_of_step h.toRunning hstep with ⟨c, hc, ht⟩ | ⟨hk, hp⟩ | hfin
  · exact (h.announced.of_turns hc ht).imp id fun ha => { hrunning with announced := ha }
  · exact .inr { hrunning with announced := h.announced.of_keeps hk hp }
  · exact .inl hfin

theorem called_of_run (seed : BitVec 64) {acts : List (Runtime × Act)}
    (hrun : run Room.step (newRoom seed) acts = some s) :
    s.logic.finished = true ∨ Called s := by
  refine over_or_of_run (fun h _ _ => h.step)
    { running_newRoom seed with announced := ?_ } along_true hrun
  rintro - (hs | hs) <;> cases hs

/-- **The players know whose turn it is**: it was announced last, unless an announcement is due. -/
theorem announced_of_run (seed : BitVec 64) {acts : List (Runtime × Act)}
    (hrun : run Room.step (newRoom seed) acts = some s) (hfin : s.logic.finished ≠ true) :
    s.Announced :=
  ((called_of_run seed hrun).resolve_left hfin).announced

/-- While timer `k` is the turn timer, no other turn has been announced. -/
theorem since_of_run (h : Called s) {acts : List (Runtime × Act)}
    (hrun : run Room.step s acts = some s') (htimer : s.logic.turnTimer = some k) :
    s'.logic.finished = true ∨ Called s' ∧ Since k s.turns.length s' := by
  have hall : s'.logic.finished = true ∨
      Called s' ∧ Since k s.turns.length s' ∧ s.turns.length ≤ s'.turns.length := by
    refine over_or_of_run (I := fun r =>
      Called r ∧ Since k s.turns.length r ∧ s.turns.length ≤ r.turns.length) ?_
      ⟨h, .inl htimer, le_rfl⟩ along_true hrun
    rintro r a r' ⟨hcalled, hsince, hle⟩ - - hstep
    rcases hcalled.step hstep with hfin | hcalled'
    · exact .inl hfin
    rcases keeps_of_step hcalled.toRunning hstep with ⟨c, hc, ht⟩ | ⟨hk, hp⟩ | hfin
    · exact (hsince.of_turns hle hc ht).imp id fun hnext => ⟨hcalled', hnext⟩
    · refine .inr ⟨hcalled', hsince.of_keeps hk hp, ?_⟩
      rw [hk.turns]
      exact hle
    · exact .inl hfin
  exact hall.imp id fun h => ⟨h.1, h.2.1⟩

/-- **A callback that comes too late does nothing**, if it runs before the game is over and before
another turn of its player is announced. -/
theorem stale_callback_harmless (seed : BitVec 64) {acts acts' : List (Runtime × Act)}
    (hrun : run Room.step (newRoom seed) acts = some s)
    (htimer : s.logic.turnTimer = some k) (hrun' : run Room.step s acts' = some s')
    (hcancelled : s'.logic.turnTimer ≠ some k) {uid : Uid}
    (hposted : s'.timers[k]? = some ⟨uid, .posted⟩) (hp : s'.pending = none)
    (hfin : s'.logic.finished = false) (hturns : uid ∉ s'.turns.drop s.turns.length)
    (rt : Runtime) :
    s'.step (rt, .fire k) = some (s'.markTimer k .done) ∧ s'.panicked = false := by
  have hover : s'.logic.finished ≠ true := by rw [hfin]; exact Bool.false_ne_true
  have hcalled : Called s := by
    refine (called_of_run seed hrun).resolve_left fun hs => hover ?_
    refine invariant_of_run (I := fun r => r.logic.finished = true)
      (fun _ _ _ h _ hstep => finished_of_step hstep h) hs along_true hrun'
  obtain ⟨hcalled', hsince⟩ := (since_of_run hcalled hrun' htimer).resolve_left hover
  refine ⟨?_, hcalled'.calm⟩
  have hquiet : s'.announcing = false := by rw [announcing, hp]
  -- another turn has been announced since
  have hlt : s.turns.length < s'.turns.length := by
    rcases hsince with h | h | h
    · exact absurd h hcancelled
    · exact h
    · rw [hquiet] at h
      cases h
  have hfire : s'.step (rt, .fire k) = some ((s'.markTimer k .done).timeUp uid) := by
    simp only [step, hp, hposted]
  rw [hfire]
  congr 1
  obtain ⟨cur, hcur⟩ := hcalled'.seats.exists_current
  have hcur' : (s'.markTimer k .done).logic.currentUID = some cur := hcur
  rw [timeUp, hcur']
  dsimp only
  split
  next heq =>
    subst heq
    -- it would be the turn of the one announced last, which is a later turn
    have hstage : ¬(s'.logic.stage = .bidding ∨ s'.logic.stage = .playing) := by
      intro hs
      have hlast := hcalled'.announced hquiet hs
      rw [hcur] at hlast
      refine hturns (mem_of_getLast? (?_ : (s'.turns.drop s.turns.length).getLast? = _))
      rw [getLast?_drop, if_neg (by omega)]
      exact hlast
    rw [not_or] at hstage
    rw [takeOver]
    split
    next hs => exact absurd hs hstage.1
    next hs => exact absurd hs hstage.2
    · rfl
    · rfl
  · rfl

def timeUpActs : List (Runtime × Act) :=
  [Act.join "a", .join "b", .join "c", .cont, .cont, .expire 0].map (Runtime.plain, ·)

theorem announced_of_run_first : ∃ s, run Room.step (newRoom 20260923) timeUpActs = some s ∧
    (s.logic.finished ≠ true ∧ s.logic.currentUID = some "a") ∧ s.Announced :=
  exists_of_run_and (by decide +kernel) fun _ hrun hs => announced_of_run 20260923 hrun hs.1

def bidActs : List (Runtime × Act) :=
  [Act.message "a" (.call 1), .cont, .cont].map (Runtime.plain, ·)

theorem stale_callback_harmless_bid : ∃ s s', run Room.step (newRoom 20260923) timeUpActs = some s ∧
      run Room.step s bidActs = some s' ∧ s'.turns = ["a", "b"] ∧
      s'.step (Runtime.plain, .fire 0) = some (s'.markTimer 0 .done) := by
  obtain ⟨s, hrun, htimer, hlen, hnext⟩ := exists_of_run Room.step (newRoom 20260923)
    timeUpActs (fun s : Room => s.logic.turnTimer = some 0 ∧ s.turns.length = 1 ∧
      (run Room.step s bidActs).any (fun r : Room => decide (r.logic.turnTimer = some 1 ∧
        r.timers[0]? = some (Timer.mk "a" .posted) ∧ r.pending = none ∧
        r.logic.finished = false ∧ r.turns = ["a", "b"])) = true) (by decide +kernel)
  obtain ⟨s', hrun', hs'⟩ := exists_of_run Room.step s bidActs _ hnext
  obtain ⟨htimer', hposted, hp, hfin, hturns⟩ := hs'
  refine ⟨s, s', hrun, hrun', hturns, ?_⟩
  refine (stale_callback_harmless 20260923 hrun htimer hrun' ?_ hposted hp hfin ?_ _).1
  · rw [htimer']
    decide
  · rw [hturns, hlen]
    decide

/-- The cards are dealt again after the first round; the callback is from it. -/
def redealActs : List (Runtime × Act) :=
  timeUpActs ++ [Act.message "a" (.call 0), .cont, .cont, .message "b" (.call 0), .cont, .cont,
    .message "c" (.call 0), .cont, .cont, .cont, .cont, .fire 0].map (Runtime.plain, ·)

/-- The landlord's time is up, and so is the room's; the callback is from the last turn. -/
def finishedActs : List (Runtime × Act) :=
  [Act.join "a", .join "b", .join "c", .cont, .cont, .message "a" (.call 3), .cont, .cont, .cont,
    .expire 1, .timeout, .fire 1, .cont, .cont].map (Runtime.plain, ·)

/-- The first player leaves while the third one is asked. -/
def leftActs : List (Runtime × Act) :=
  [Act.join "a", .join "b", .join "c", .cont, .cont, .message "a" (.call 0), .cont, .cont,
    .message "b" (.call 0), .cont, .cont, .expire 2, .leave "a", .fire 2].map (Runtime.plain, ·)

/-- Callbacks of cancelled timers bid in the next round, play in a game that is over, and panic
after a leave. -/
theorem stale_callback_acts : (∃ s, run Room.step (newRoom 20260923) redealActs = some s ∧
      s.logic.turnTimer = some 3 ∧ s.pending = some (.applyBid "a" 0)) ∧
    (∃ s, run Room.step (newRoom 20260923) finishedActs = some s ∧
      s.logic.finished = true ∧ s.logic.lastPlayed.map PlayedNtf.uid = some "a" ∧
      s.pending = some (.nextTurn false)) ∧
    ∃ s, run Room.step (newRoom 20260923) leftActs = some s ∧ s.panicked = true :=
  ⟨exists_of_run _ _ _ _ (by decide +kernel), exists_of_run _ _ _ _ (by decide +kernel),
    exists_of_run _ _ _ _ (by decide +kernel)⟩

end Steps

end Room

end RanGame.Doudizhu
