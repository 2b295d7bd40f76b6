import RanGame.Room.Roster

/-!
# The last callback

When a room is closed, the game logic receives `OnDestroy`; whatever it receives afterwards comes
too late. `handleLeave` does not look at `closing` again after `OnLeave`, so if the logic closes the
room there, `OnEmpty` follows. A timer that has put its function into the mailbox cannot be
cancelled. And if `OnDestroy` panics, `doClose` ends there, and the members and the actor stay.
-/

namespace RanGame.Room

open Actor Machine List Script Process

/-- No part of the callback closes the room. -/
def Script.closeFree : Script → Bool
  | .done | .panic => true
  | .kick _ onLeave onEmpty rest => onLeave.closeFree && onEmpty.closeFree && rest.closeFree
  | .close _ _ => false

/-- In a room that is closing, where kicking and closing do nothing, there is no panic. -/
def Script.settles : Script → Bool
  | .done => true
  | .panic => false
  | .kick _ _ _ rest | .close _ rest => rest.settles

/-- Whenever a member is kicked, `OnLeave` leaves the room open, and `OnDestroy` does not panic. -/
def Script.orderly : Script → Bool
  | .done | .panic => true
  | .kick _ onLeave onEmpty rest => onLeave.closeFree && onEmpty.orderly && rest.orderly
  | .close onDestroy rest => onDestroy.settles && rest.orderly

/-- The same for what is done with a piece of mail. -/
def Mail.orderly (cb cb' : Script) : Mail → Bool
  | .leave _ => cb.closeFree && cb'.orderly
  | .close => cb.settles
  | .invoke .timeout => cb.orderly && cb'.settles
  | _ => cb.orderly

def Mail.isInvoke : Mail → Bool
  | .invoke _ => true
  | _ => false

/-- A room, and the process that runs it, with `n` envelopes. -/
structure Host (n : ℕ) where
  proc : Process n
  roster : Roster

namespace Host

variable {n : ℕ}

/-- The steps of `RoomActor.step`, with the map, the list and the callbacks. -/
def step (pol : Policy) (mail : Fin n → Mail) (s : Host n) : RoomAct n → Option (Host n)
  | .act a =>
    if ofCallback a then none else (s.proc.step pol a).map fun p => { s with proc := p }
  | .init onCreate =>
    ((RoomActor.settle s.proc (s.roster.init onCreate).1.state).step pol
      (.initEnd (s.roster.init onCreate).2)).map fun p => ⟨p, (s.roster.init onCreate).1⟩
  | .handle cb cb' =>
    match s.proc.run.current with
    | some i =>
      ((RoomActor.settle s.proc (s.roster.handle cb cb' (mail i)).1.state).step pol
        (.handleEnd (s.roster.handle cb cb' (mail i)).2)).map fun p =>
          ⟨p, (s.roster.handle cb cb' (mail i)).1⟩
    | none => none

/-- While the room is closing, no timer is in the mailbox; `OnLeave` does not close it, and
`OnDestroy` does not panic. -/
def Orderly (mail : Fin n → Mail) (s : Host n) (a : RoomAct n) : Prop :=
  (s.roster.closing = true → ∀ i ∈ s.proc.mb, (mail i).isInvoke = false) ∧
    match a with
    | .act _ => True
    | .init onCreate => onCreate.orderly = true
    | .handle cb cb' => ∀ i ∈ s.proc.run.current, (mail i).orderly cb cb' = true

end Host

def newHost (n : ℕ) (clock maxPlayers : ℤ) (timeoutLogic : Bool) : Host n :=
  ⟨spawn n clock, newRoster maxPlayers timeoutLogic⟩

/-! ### What a callback does in a room that is closing -/

namespace Roster

variable {r : Roster}

theorem handleLeave_of_closing (h : r.closing = true) (onLeave onEmpty : Roster → RosterOutcome)
    (uid : String) : r.handleLeave onLeave onEmpty uid = (r, false) := if_pos h

theorem doClose_of_closing (h : r.closing = true) (onDestroy : Roster → RosterOutcome) :
    r.doClose onDestroy = (r, false) := if_pos h

end Roster

theorem Script.play_of_closing {r : Roster} (h : r.closing = true) (s : Script) :
    s.play r = (r, !s.settles) := by
  induction s with
  | done | panic => rfl
  | kick uid onLeave onEmpty rest _ _ ih =>
    rw [play, Roster.handleLeave_of_closing h]
    exact ih
  | close onDestroy rest _ ih =>
    rw [play, Roster.doClose_of_closing h]
    exact ih

namespace Roster

variable {r : Roster}

theorem doClose_of_settles {onDestroy : Script} (hopen : r.closing = false)
    (hs : onDestroy.settles = true) :
    r.doClose onDestroy.play = ((r.beginClose.note .onDestroy).clear, false) := by
  have hplay := play_of_closing (r := r.beginClose.note .onDestroy) rfl onDestroy
  rw [doClose, if_neg (by rw [hopen]; exact Bool.false_ne_true), hplay, hs]
  rfl

theorem andThen_induction {P : Roster → Prop} {o : RosterOutcome} {f : Roster → RosterOutcome}
    (ho : P o.1) (hf : P o.1 → P (f o.1).1) : P (o.andThen f).1 := by
  unfold RosterOutcome.andThen
  split
  · exact ho
  · exact hf ho

end Roster

/-! ### The last callback -/

namespace Roster

variable {r : Roster}

/-- `OnDestroy` is still to come, or was the last callback and the room is empty. -/
structure Final (r : Roster) : Prop where
  opened : r.closing = false → ∀ e ∈ r.log, e.callback.isDestroy = false
  empty : r.closing = true → r.members = ∅
  closed : r.closing = true → ∀ e ∈ r.log.dropLast, e.callback.isDestroy = false

theorem Final.of_open (hopen : r.closing = false)
    (h : ∀ e ∈ r.log, e.callback.isDestroy = false) : r.Final where
  opened _ := h
  empty hc := by
    rw [hopen] at hc
    cases hc
  closed hc := by
    rw [hopen] at hc
    cases hc

theorem Final.note (h : r.Final) (hopen : r.closing = false) (cb : Callback)
    (hcb : cb.isDestroy = false) : (r.note cb).Final :=
  .of_open hopen
    (forall_mem_append.mpr ⟨h.opened hopen, forall_mem_singleton.mpr hcb⟩)

theorem Final.doClose (h : r.Final) {onDestroy : Script} (hs : onDestroy.settles = true) :
    (r.doClose onDestroy.play).1.Final := by
  cases hc : r.closing with
  | true =>
    rw [doClose_of_closing hc]
    exact h
  | false =>
    rw [doClose_of_settles hc hs]
    refine ⟨fun hopen => ?_, fun _ => rfl, fun _ => ?_⟩
    · cases hopen
    · simp only [clear, Roster.note, dropLast_concat]
      exact h.opened hc

theorem Final.handleLeave {onLeave onEmpty : Roster → RosterOutcome}
    (hl : ∀ r : Roster, r.Final → r.closing = false →
      (onLeave r).1.Final ∧ (onLeave r).1.closing = false)
    (he : ∀ r : Roster, r.Final → (onEmpty r).1.Final) (h : r.Final) (uid : String) :
    (r.handleLeave onLeave onEmpty uid).1.Final := by
  unfold Roster.handleLeave
  split
  · exact h
  next hopen =>
    rw [Bool.not_eq_true] at hopen
    split
    · have hgone : (r.remove uid).Final := .of_open hopen (h.opened hopen)
      have hleft := hl _ (hgone.note hopen (.onLeave uid) rfl) hopen
      refine andThen_induction hleft.1 fun _ => ?_
      split
      · exact he _ (hleft.1.note hleft.2 .onEmpty rfl)
      · exact hleft.1
    · exact h

end Roster

theorem Script.orderly_of_closeFree {s : Script} (h : s.closeFree = true) : s.orderly = true := by
  induction s with
  | done | panic => rfl
  | kick uid onLeave onEmpty rest _ ihe ih =>
    simp only [closeFree, Bool.and_eq_true] at h
    simp only [orderly, Bool.and_eq_true]
    exact ⟨⟨h.1.1, ihe h.1.2⟩, ih h.2⟩
  | close onDestroy rest => cases h

theorem Script.closing_of_closeFree {s : Script} (h : s.closeFree = true) (r : Roster)
    (hopen : r.closing = false) : (s.play r).1.closing = false := by
  induction s generalizing r with
  | done | panic => exact hopen
  | kick uid onLeave onEmpty rest ihl ihe ih =>
    simp only [closeFree, Bool.and_eq_true] at h
    obtain ⟨⟨hl, he⟩, hrest⟩ := h
    refine Roster.andThen_induction (P := fun r => r.closing = false) ?_ (ih hrest _)
    unfold Roster.handleLeave
    split
    · exact hopen
    · split
      · refine Roster.andThen_induction (P := fun r => r.closing = false) (ihl hl _ hopen) ?_
        intro ho
        split
        · exact ihe he _ ho
        · exact ho
      · exact hopen
  | close onDestroy rest => cases h

/-- **An orderly callback is followed by nothing once it has closed the room.** -/
theorem Roster.Final.play {s : Script} (hs : s.orderly = true) {r : Roster} (h : r.Final) :
    (s.play r).1.Final := by
  induction s generalizing r with
  | done | panic => exact h
  | kick uid onLeave onEmpty rest ihl ihe ih =>
    simp only [orderly, Bool.and_eq_true] at hs
    obtain ⟨⟨hl, he⟩, hrest⟩ := hs
    refine Roster.andThen_induction ?_ (ih hrest)
    refine h.handleLeave (fun q hq hopen => ⟨?_, ?_⟩) (fun q hq => ihe he hq) uid
    · exact ihl (orderly_of_closeFree hl) hq
    · exact closing_of_closeFree hl q hopen
  | close onDestroy rest _ ih =>
    simp only [orderly, Bool.and_eq_true] at hs
    exact Roster.andThen_induction (h.doClose hs.1) (ih hs.2)

theorem Roster.Final.handle {r : Roster} (h : r.Final) {cb cb' : Script} {mail : Mail}
    (hs : mail.orderly cb cb' = true) (htimer : r.closing = true → mail.isInvoke = false) :
    (r.handle cb cb' mail).1.Final := by
  cases mail with
  | join uid =>
    change (r.handleJoin cb.play uid).1.1.Final
    unfold handleJoin
    split
    · exact h
    next hopen =>
      rw [Bool.not_eq_true] at hopen
      split
      · exact h
      · split
        · exact h
        · have hin : (r.add uid).Final := .of_open hopen (h.opened hopen)
          exact (hin.note hopen (.onJoin uid) rfl).play hs
  | leave uid =>
    simp only [Mail.orderly, Bool.and_eq_true] at hs
    refine h.handleLeave (fun q hq hopen => ⟨?_, ?_⟩) (fun q hq => hq.play hs.2) uid
    · exact hq.play (orderly_of_closeFree hs.1)
    · exact closing_of_closeFree hs.1 q hopen
  | close => exact h.doClose hs
  | message uid =>
    simp only [Roster.handle]
    split
    next hmem =>
      -- a room that is closing has no members
      have hopen : r.closing = false := by
        cases hc : r.closing with
        | false => rfl
        | true =>
          rw [h.empty hc] at hmem
          exact absurd hmem (Finset.notMem_empty uid)
      exact (h.note hopen (.onMessage uid) rfl).play hs
    · exact h
  | invoke f =>
    have hopen : r.closing = false := by
      cases hc : r.closing with
      | false => rfl
      | true => cases htimer hc
    cases f with
    | tick => exact (h.note hopen .tick rfl).play hs
    | timer => exact (h.note hopen .timer rfl).play hs
    | timeout =>
      simp only [Mail.orderly, Bool.and_eq_true] at hs
      refine Roster.andThen_induction ?_ fun ho => ho.doClose hs.2
      split
      · exact (h.note hopen .onTimeout rfl).play hs.1
      · exact h

namespace Host

variable {n : ℕ} {pol : Policy} {mail : Fin n → Mail} {s s' : Host n}

/-- `OnDestroy` comes last, and a closing room has been through `Init` and runs no timer's function.
-/
structure Ended (mail : Fin n → Mail) (s : Host n) : Prop where
  final : s.roster.Final
  fresh : s.proc.run = .init → s.roster.closing = false
  current : s.roster.closing = true → ∀ i, s.proc.run.current = some i → (mail i).isInvoke = false

theorem Ended.of_calling (hf : s.roster.Final) (h : s.proc.run.calling = false) : s.Ended mail where
  final := hf
  fresh hinit := by
    rw [hinit] at h
    cases h
  current _ i hi := by
    rw [current_of_calling h] at hi
    cases hi

theorem Ended.step (h : s.Ended mail) {a : RoomAct n} (ho : s.Orderly mail a)
    (hstep : s.step pol mail a = some s') : s'.Ended mail := by
  obtain ⟨hquiet, hscript⟩ := ho
  cases a with
  | act b =>
    obtain ⟨-, hstep⟩ := Option.ite_none_left_eq_some.mp hstep
    obtain ⟨p, hp, rfl⟩ := Option.map_eq_some_iff.mp hstep
    refine ⟨h.final, fun hi => h.fresh (init_of_step hp hi), fun hc i hi => ?_⟩
    rcases current_of_step hp hi with hbefore | hmb
    · exact h.current hc i hbefore
    · exact hquiet hc i hmb
  | init onCreate =>
    obtain ⟨p, hp, rfl⟩ := Option.map_eq_some_iff.mp hstep
    have hopen : s.roster.closing = false := by
      refine h.fresh ?_
      cases happens_of_step hp with
      | initEnd hrun => rwa [RoomActor.settle_run] at hrun
    exact .of_calling ((h.final.note hopen .onCreate rfl).play hscript) (calling_initEnd hp)
  | handle cb cb' =>
    simp only [Host.step] at hstep
    split at hstep
    next i hi =>
      obtain ⟨p, hp, rfl⟩ := Option.map_eq_some_iff.mp hstep
      exact .of_calling (h.final.handle (hscript i hi) fun hc => h.current hc i hi)
        (calling_handleEnd hp)
    · cases hstep

variable {clock maxPlayers : ℤ} {timeoutLogic : Bool} {acts : List (RoomAct n)}

theorem ended_newHost : (newHost n clock maxPlayers timeoutLogic).Ended mail where
  final := .of_open rfl (by simp [newHost, newRoster])
  fresh _ := rfl
  current _ i hi := by cases hi

/-- **`OnDestroy` is the last callback** of an orderly room. -/
theorem destroy_last
    (hrun : run (step pol mail) (newHost n clock maxPlayers timeoutLogic) acts = some s)
    (horderly : Along (step pol mail) (Orderly mail) (newHost n clock maxPlayers timeoutLogic) acts)
    {before after : List Entry} {e : Entry} (hlog : s.roster.log = before ++ e :: after)
    (he : e.callback = .onDestroy) : after = [] := by
  have hended : s.Ended mail :=
    invariant_of_run (I := Ended mail) (fun _ _ _ h ho hstep => h.step ho hstep)
      ended_newHost horderly hrun
  have hdestroy : e.callback.isDestroy = true := by rw [he]; rfl
  by_contra hne
  -- then `e` is not the last one, and so it is not `OnDestroy`
  have hmem : e ∈ s.roster.log.dropLast := by
    rw [hlog, dropLast_append_of_ne_nil (cons_ne_nil e after),
      dropLast_cons_of_ne_nil hne]
    exact mem_append_right _ (mem_cons_self ..)
  have hnot : e.callback.isDestroy = false := by
    cases hc : s.roster.closing with
    | true => exact hended.final.closed hc e hmem
    | false => exact hended.final.opened hc e (dropLast_subset _ hmem)
  rw [hnot] at hdestroy
  cases hdestroy

/-- Alice joins, a tick follows, and Alice leaves. -/
def leavingMail (i : Fin 3) : Mail :=
  if i = 0 then .join "alice" else if i = 1 then .invoke .tick else .leave "alice"

/-- The room is closed in `OnEmpty`. -/
def closedWhenEmptyActs : List (RoomAct 3) :=
  [.act (.lookup 0), .act (.send 0), .act (.lookup 1), .act (.send 1), .act (.lookup 2),
    .act (.send 2), .init .done, .act .receive, .handle .done .done, .act .receive,
    .handle .done .done, .act .receive, .handle .done (.close .done .done), .act .finish]

instance (s : Host n) (a : RoomAct n) : Decidable (s.Orderly mail a) := by
  letI : Decidable (∀ i ∈ s.proc.mb, (mail i).isInvoke = false) := decidableBAll _ _
  induction a using RoomAct.casesOn <;> unfold Orderly <;> infer_instance

theorem destroy_last_closedWhenEmpty : ∃ s,
    run (step RoomActor.samplePolicy leavingMail) (newHost 3 0 2 false)
        closedWhenEmptyActs = some s ∧
      ∃ before e after, s.roster.log = before ++ e :: after ∧ before.length = 5 ∧
        e.callback = .onDestroy ∧ after = [] := by
  obtain ⟨s, hrun, before, e, after, hlog, hlen, he⟩ : ∃ s,
      run (step RoomActor.samplePolicy leavingMail) (newHost 3 0 2 false)
          closedWhenEmptyActs = some s ∧
        ∃ before e after, s.roster.log = before ++ e :: after ∧ before.length = 5 ∧
          e.callback = .onDestroy :=
    ⟨_, rfl, [_, _, _, _, _], _, [], rfl, rfl, rfl⟩
  have horderly : Along (step RoomActor.samplePolicy leavingMail) (Orderly leavingMail)
      (newHost 3 0 2 false) closedWhenEmptyActs := by decide +kernel
  exact ⟨s, hrun, before, e, after, hlog, hlen, he, destroy_last hrun horderly hlog he⟩

/-- The room is closed in `OnLeave`. -/
def closedInLeaveActs : List (RoomAct 3) :=
  [.act (.lookup 0), .act (.send 0), .act (.lookup 2), .act (.send 2), .init .done, .act .receive,
    .handle .done .done, .act .receive, .handle (.close .done .done) .done, .act .finish]

/-- Alice joins and closes the room, with a tick already in the mailbox. -/
def closedBeforeTickActs : List (RoomAct 3) :=
  [.act (.lookup 0), .act (.send 0), .act (.lookup 1), .act (.send 1), .init .done, .act .receive,
    .handle (.close .done .done) .done, .act .receive, .handle .done .done, .act .drainEnd,
    .act .finish]

/-- `OnDestroy` panics when Alice joins, and their next message is delivered all the same. -/
def panicInDestroyActs : List (RoomAct 2) :=
  [.act (.lookup 0), .act (.send 0), .act (.lookup 1), .act (.send 1), .init .done, .act .receive,
    .handle (.close .panic .done) .done, .act .receive, .handle .done .done]

/-- Callbacks after `OnDestroy`: `OnEmpty` if the room is closed in `OnLeave`, a tick in the
mailbox, and a message after a panic. -/
theorem called_after_destroy :
    (∃ s, run (step RoomActor.samplePolicy leavingMail) (newHost 3 0 2 false)
        closedInLeaveActs = some s ∧
      s.roster.log.map Entry.callback =
        [.onCreate, .onJoin "alice", .onLeave "alice", .onDestroy, .onEmpty]) ∧
    (∃ s, run (step RoomActor.samplePolicy leavingMail) (newHost 3 0 2 false)
        closedBeforeTickActs = some s ∧
      s.roster.log.map Entry.callback = [.onCreate, .onJoin "alice", .onDestroy, .tick]) ∧
    ∃ s, run (step RoomActor.samplePolicy
        fun i : Fin 2 => if i = 0 then .join "alice" else .message "alice") (newHost 2 0 2 false)
        panicInDestroyActs = some s ∧
      s.roster.log.map Entry.callback =
        [.onCreate, .onJoin "alice", .onDestroy, .onMessage "alice"] :=
  ⟨⟨_, rfl, by decide⟩, ⟨_, rfl, by decide⟩, ⟨_, rfl, by decide⟩⟩

end Host

end RanGame.Room
