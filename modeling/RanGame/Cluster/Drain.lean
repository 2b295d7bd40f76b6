import RanGame.Cluster.Registry

/-!
# Draining a node

`Drain` (`internal/cluster/drain.go`) arms a timer that calls `ForceDrain`, but only the first time;
later calls write a deadline that nothing reads. `WaitDrained` returns when the node is empty,
although only `notifyRoomChange`, which is called nowhere, would tell the registry and stop the
timer.
-/

namespace RanGame.Cluster

open Machine Option

/-- `drainController`, its clock, the numbers of rooms and sessions, if known, what the registry has
been told, and where calls of `ForceDrain` and goroutines of `WaitDrained` are. -/
structure DrainController where
  now : ℤ
  state : NodeState
  told : NodeState
  rooms : Option ℕ
  sessions : Option ℕ
  /-- When the timer goes off, if it is armed. -/
  timer : Option ℤ
  /-- The timer has gone off, and has not called `ForceDrain` yet. -/
  fired : Bool
  settling : ℕ
  telling : ℕ
  /-- When `forceSettle` was called. -/
  settled : List ℤ
  /-- The deadline of the last `Drain` before the node was drained. -/
  asked : Option ℤ
  waiting : ℕ
  left : ℕ
  deriving DecidableEq

def newDrainController (rooms sessions : Option ℕ) : DrainController where
  now := 0
  state := .active
  told := .active
  rooms := rooms
  sessions := sessions
  timer := none
  fired := false
  settling := 0
  telling := 0
  settled := []
  asked := none
  waiting := 0
  left := 0

inductive DrainAct
  | wait (k : ℕ)
  | setRooms (n : ℕ)
  | setSessions (n : ℕ)
  | drain (deadline : ℤ)
  | notifyRoomChange
  | forceDrain
  | fire
  | runTimer
  | settle
  | tell
  | waitDrained
  /-- Its goroutine has been woken up, or has the mutex for the first time. -/
  | check
  | return
  /-- `WaitDrained` returns the error of its context. -/
  | cancel (wasLeft : Bool)
  deriving DecidableEq

namespace DrainController

variable (s : DrainController)

def Empty : Prop := s.rooms = some 0 ∧ s.sessions.getD 0 = 0

instance : Decidable s.Empty := inferInstanceAs (Decidable (_ ∧ _))

/-- `Drain`. A timer for a deadline in the past goes off at once. -/
def drain (deadline : ℤ) : DrainController :=
  match s.state with
  | .active => { s with
      state := .draining
      told := .draining
      timer := some (max (s.now + deadline) s.now)
      asked := some (s.now + deadline) }
  | .draining => { s with asked := some (s.now + deadline) }
  | _ => s

def notifyRoomChange : DrainController :=
  if s.state = .draining ∧ s.Empty then
    { s with state := .drained, timer := none, told := .drained }
  else s

/-- `ForceDrain`, as far as it holds the mutex -/
def forceDrain : DrainController :=
  if s.state = .draining then
    { s with state := .drained, timer := none, settling := s.settling + 1 }
  else s

/-- One step. Time only passes when no timer is due and nothing that one has begun is left. -/
def step (s : DrainController) : DrainAct → Option DrainController
  | .wait k =>
    if (∀ t ∈ s.timer, s.now + k ≤ t) ∧ s.fired = false ∧ s.settling = 0 then
      some { s with now := s.now + k }
    else none
  | .setRooms n => some { s with rooms := s.rooms.map fun _ => n }
  | .setSessions n => some { s with sessions := s.sessions.map fun _ => n }
  | .drain deadline => some (s.drain deadline)
  | .notifyRoomChange => some s.notifyRoomChange
  | .forceDrain => some s.forceDrain
  | .fire =>
    match s.timer with
    | some t => if t ≤ s.now then some { s with timer := none, fired := true } else none
    | none => none
  | .runTimer => if s.fired = true then some { s.forceDrain with fired := false } else none
  | .settle =>
    if 0 < s.settling then some { s with
      settling := s.settling - 1, telling := s.telling + 1, settled := s.settled ++ [s.now] }
    else none
  | .tell =>
    if 0 < s.telling then some { s with telling := s.telling - 1, told := .drained } else none
  | .waitDrained => some { s with waiting := s.waiting + 1 }
  | .check =>
    if 0 < s.waiting then
      some (if s.state = .draining ∧ ¬ s.Empty then s
        else { s with waiting := s.waiting - 1, left := s.left + 1 })
    else none
  | .return => if 0 < s.left then some { s with left := s.left - 1 } else none
  | .cancel false => if 0 < s.waiting then some { s with waiting := s.waiting - 1 } else none
  | .cancel true => if 0 < s.left then some { s with left := s.left - 1 } else none

variable {s} {s' : DrainController} {a : DrainAct}

/-! ### What `WaitDrained` waits for -/

/-- `WaitDrained` is called after `Drain`, and never finds a node empty and draining, or
`ForceDrain` at work. -/
def Wired (s : DrainController) : DrainAct → Prop
  | .waitDrained => s.state ≠ .active
  | .check => (s.state = .draining → ¬ s.Empty) ∧ s.settling = 0 ∧ s.telling = 0
  | _ => True

instance (a : DrainAct) : Decidable (s.Wired a) := by
  cases a <;> unfold Wired <;> infer_instance

/-- The node is drained, the registry knows, and nothing is left to be done. -/
structure Over (s : DrainController) : Prop where
  state : s.state = .drained
  told : s.told = .drained
  timer : s.timer = none
  settling : s.settling = 0
  telling : s.telling = 0

theorem Over.step (h : s.Over) (hstep : s.step a = some s') : s'.Over ∧ s'.settled = s.settled := by
  obtain ⟨hstate, htold, htimer, hsettling, htelling⟩ := h
  have hforce : s.forceDrain = s := if_neg (by simp [hstate])
  have hnotify : s.notifyRoomChange = s := if_neg (by simp [hstate])
  have hdrain : ∀ d, s.drain d = s := fun d => by rw [drain, hstate]
  unfold DrainController.step at hstep
  rw [htimer, hsettling, htelling, hforce, hnotify] at hstep
  refine ⟨⟨?_, ?_, ?_, ?_, ?_⟩, ?_⟩ <;> grind

structure Waited (s : DrainController) : Prop where
  up : s.state ≠ .down
  called : 0 < s.waiting → s.state ≠ .active
  drained : s.state = .drained → s.timer = none ∧ (s.told = .drained ∨ 0 < s.settling + s.telling)
  left : 0 < s.left → s.Over

theorem Waited.step (h : s.Waited) (hw : s.Wired a) (hstep : s.step a = some s') : s'.Waited := by
  have hover : s.Over → s'.Over := fun ho => (ho.step hstep).1
  obtain ⟨hup, hcalled, hdrained, hleft⟩ := h
  cases a with
  | check =>
    obtain ⟨hpos, hstep⟩ := ite_none_right_eq_some.mp hstep
    split at hstep <;> cases hstep
    · exact ⟨hup, hcalled, hdrained, hleft⟩
    next hnot =>
      obtain ⟨hfull, hsettling, htelling⟩ := hw
      have hstate : s.state = .drained := by
        have hactive := hcalled hpos
        cases hs : s.state <;> grind
      obtain ⟨htimer, htold⟩ := hdrained hstate
      have hover : s.Over := ⟨hstate, htold.resolve_right (by omega), htimer, hsettling, htelling⟩
      exact ⟨hup, fun _ => hcalled hpos, hdrained, fun _ => { hover with }⟩
  | _ =>
    simp only [DrainController.step, drain, notifyRoomChange, forceDrain] at hstep
    refine ⟨?_, ?_, ?_, ?_⟩ <;> grind [Wired]

/-- **`WaitDrained` returns when everything is over**, if it never finds an empty node still
draining. -/
theorem waitDrained_over {rooms sessions : Option ℕ} {acts : List DrainAct}
    (hrun : run step (newDrainController rooms sessions) acts = some s)
    (hwired : Along step Wired (newDrainController rooms sessions) acts)
    (hreturn : s.step .return = some s') :
    (s'.state = .drained ∧ s'.told = .drained ∧ s'.timer = none) ∧
      ∀ acts' s'', run step s' acts' = some s'' → s''.settled = s'.settled := by
  have h : s.Waited := invariant_of_run (fun _ _ _ h => h.step)
    (by constructor <;> simp [newDrainController]) hwired hrun
  obtain ⟨hpos, -⟩ := ite_none_right_eq_some.mp hreturn
  obtain ⟨hover, -⟩ := (h.left hpos).step hreturn
  refine ⟨⟨hover.state, hover.told, hover.timer⟩, fun acts' s'' hrun' => ?_⟩
  have hkeep := invariant_of_run (I := fun t => t.Over ∧ t.settled = s'.settled)
    (fun t a t' ht _ hstep => (ht.1.step hstep).imp_right (·.trans ht.2)) ⟨hover, rfl⟩
    along_true hrun'
  exact hkeep.2

theorem waitDrained_over_notified : ∃ s s',
    run step (newDrainController (some 1) (some 0)) [.drain 100, .waitDrained, .check,
      .setRooms 0, .notifyRoomChange, .check] = some s ∧ s.step .return = some s' ∧
      s'.told = .drained := by
  obtain ⟨s, hrun, hleft⟩ := exists_of_run step (newDrainController (some 1) (some 0))
    [.drain 100, .waitDrained, .check, .setRooms 0, .notifyRoomChange, .check] (0 < ·.left)
    (by decide)
  have hreturn : s.step .return = some { s with left := s.left - 1 } := if_pos hleft
  exact ⟨s, _, hrun, hreturn, (waitDrained_over hrun (by decide) hreturn).1.2.1⟩

/-- `WaitDrained` returns from an empty node; the timer goes off later. -/
theorem waitDrained_early :
    (∃ s, run step (newDrainController (some 0) (some 0)) [.drain 100, .waitDrained, .check,
      .return] = some s ∧ s.state = .draining ∧ s.told = .draining ∧ s.timer = some 100) ∧
    ∃ s, run step (newDrainController (some 0) (some 0)) [.drain 100, .waitDrained, .check,
      .return, .wait 100, .fire, .runTimer, .settle] = some s ∧ s.settled = [100] :=
  ⟨exists_of_run _ _ _ _ (by decide), exists_of_run _ _ _ _ (by decide)⟩

/-! ### When the timer goes off -/

/-- Nobody calls `ForceDrain`, and another `Drain` gives the same deadline. -/
def Fixed (s : DrainController) : DrainAct → Prop
  | .forceDrain => False
  | .drain deadline => s.state = .draining → s.asked = some (s.now + deadline)
  | _ => True

instance (a : DrainAct) : Decidable (s.Fixed a) := by
  cases a <;> unfold Fixed <;> infer_instance

/-- Only a node that has been drained has been settled, and at most once. -/
structure Once (s : DrainController) : Prop where
  unforced : s.state ≠ .drained → s.settling = 0 ∧ s.settled = []
  once : s.settling + s.settled.length ≤ 1

theorem Once.step (h : s.Once) (hstep : s.step a = some s') : s'.Once := by
  obtain ⟨hunforced, honce⟩ := h
  cases a <;> simp only [DrainController.step, drain, notifyRoomChange, forceDrain] at hstep <;>
    constructor <;> grind

/-- The timer is armed for the deadline, or for now if that is past, or has gone off. -/
structure Timed (s : DrainController) : Prop where
  fresh : s.state = .active → s.fired = false
  live : s.state = .draining → s.fired = true ∨ s.timer ≠ none
  armed : ∀ u ∈ s.timer, s.state = .draining ∧ ∀ t ∈ s.asked, t ≤ u ∧ (u = t ∨ u ≤ s.now)
  due : s.fired = true ∨ 0 < s.settling → ∀ t ∈ s.asked, t ≤ s.now
  past : ∀ u ∈ s.settled, ∀ t ∈ s.asked, t ≤ u

theorem Timed.drain (h : s.Timed) (ho : s.Once) {d : ℤ} (hfixed : s.Fixed (.drain d)) :
    (s.drain d).Timed := by
  unfold DrainController.drain
  split
  next hs =>
    obtain ⟨hsettling, hsettled⟩ := ho.unforced (by simp [hs])
    constructor
    · intro hactive
      cases hactive
    · intro _
      exact .inr (by simp)
    · rintro _ ⟨⟩
      refine ⟨rfl, ?_⟩
      rintro _ ⟨⟩
      show s.now + d ≤ max (s.now + d) s.now ∧ (_ ∨ max (s.now + d) s.now ≤ s.now)
      omega
    · rintro (hfired | hpos)
      · exact absurd hfired (by simp [h.fresh hs])
      · exact absurd hpos (by simp [hsettling])
    · intro u hu
      exact absurd hu (by simp [hsettled])
  next hs =>
    rw [← hfixed hs]
    exact { h with }
  next => exact h

theorem Timed.step (h : s.Timed) (ho : s.Once) (hfixed : s.Fixed a) (hstep : s.step a = some s') :
    s'.Timed := by
  obtain ⟨hfresh, hlive, harmed, hdue, hpast⟩ := id h
  cases a with
  | drain d =>
    cases hstep
    exact h.drain ho hfixed
  | forceDrain => exact hfixed.elim
  | fire =>
    simp only [DrainController.step] at hstep
    split at hstep
    next u hu =>
      obtain ⟨hle, ⟨⟩⟩ := ite_none_right_eq_some.mp hstep
      obtain ⟨hstate, hmax⟩ := harmed u hu
      exact ⟨fun hs => absurd (hstate.symm.trans hs) nofun, fun _ => .inl rfl, nofun,
        fun _ t ht => (hmax t ht).1.trans hle, hpast⟩
    · cases hstep
  | settle =>
    obtain ⟨hpos, ⟨⟩⟩ := ite_none_right_eq_some.mp hstep
    refine ⟨hfresh, hlive, harmed, fun _ => hdue (.inr hpos), ?_⟩
    intro u hu t ht
    obtain hu | hu := List.mem_append.mp hu
    · exact hpast u hu t ht
    · rw [List.mem_singleton.mp hu]
      exact hdue (.inr hpos) t ht
  | wait k =>
    obtain ⟨⟨-, hfired, hsettling⟩, ⟨⟩⟩ := ite_none_right_eq_some.mp hstep
    refine ⟨hfresh, hlive, ?_, ?_, hpast⟩
    · intro u hu
      obtain ⟨hstate, hmax⟩ := harmed u hu
      refine ⟨hstate, fun t ht => ⟨(hmax t ht).1, ?_⟩⟩
      have hor := (hmax t ht).2
      show u = t ∨ u ≤ s.now + k
      omega
    · rintro (hf | hpos)
      · exact absurd (hfired.symm.trans hf) (by simp)
      · exact absurd hpos (by simp [hsettling])
  | notifyRoomChange =>
    cases hstep
    unfold notifyRoomChange
    split
    · exact ⟨nofun, nofun, nofun, hdue, hpast⟩
    · exact h
  | runTimer =>
    obtain ⟨hfired, ⟨⟩⟩ := ite_none_right_eq_some.mp hstep
    unfold forceDrain
    split
    · exact ⟨nofun, nofun, nofun, fun _ => hdue (.inl hfired), hpast⟩
    next hs =>
      refine ⟨fun _ => rfl, fun hd => absurd hd hs, fun u hu => absurd (harmed u hu).1 hs, ?_, hpast⟩
      exact fun _ => hdue (.inl hfired)
  | check =>
    obtain ⟨-, hstep⟩ := ite_none_right_eq_some.mp hstep
    split at hstep <;> obtain rfl := some.inj hstep <;> exact { h with }
  | cancel wasLeft =>
    cases wasLeft <;> obtain ⟨-, ⟨⟩⟩ := ite_none_right_eq_some.mp hstep <;> exact { h with }
  | tell | «return» =>
    obtain ⟨-, ⟨⟩⟩ := ite_none_right_eq_some.mp hstep
    exact { h with }
  | _ =>
    cases hstep
    exact { h with }

theorem exists_settled (hfired : s.fired = true) (hstate : s.state = .draining)
    (hnone : s.settled = []) :
    ∃ s', run step s [.runTimer, .settle] = some s' ∧ s'.settled = [s.now] := by
  have hforce : s.forceDrain = { s with
      state := .drained, timer := none, settling := s.settling + 1 } := if_pos hstate
  refine ⟨_, run_cons_eq_some.mpr ⟨_, if_pos hfired, run_cons_eq_some.mpr ⟨_, if_pos ?_, rfl⟩⟩, ?_⟩
  · rw [hforce]
    exact Nat.succ_pos _
  · rw [hforce]
    show s.settled ++ [s.now] = [s.now]
    rw [hnone, List.nil_append]

/-- **Forced settlement runs at most once**, at the deadline, if every `Drain` gives the same one.
-/
theorem settles_at_deadline {rooms sessions : Option ℕ} {acts : List DrainAct}
    (hrun : run step (newDrainController rooms sessions) acts = some s) :
    s.settled.length ≤ 1 ∧ (Along step Fixed (newDrainController rooms sessions) acts →
      (∀ u ∈ s.settled, ∀ t ∈ s.asked, t ≤ u) ∧
      (s.state = .draining → ∀ t ∈ s.asked, t ≤ s.now → (∀ k, s.step (.wait (k + 1)) = none) ∧
        ∃ acts' s', run step s acts' = some s' ∧ s'.settled = [s.now])) := by
  have hinit : (newDrainController rooms sessions).Once := by
    constructor <;> simp [newDrainController]
  have honce : s.Once := invariant_of_run (fun _ _ _ h _ => h.step) hinit along_true hrun
  refine ⟨Nat.le_of_add_left_le honce.once, fun hfixed => ?_⟩
  obtain ⟨-, h⟩ : s.Once ∧ s.Timed := invariant_of_run (I := fun t => t.Once ∧ t.Timed)
    (fun _ _ _ h hok hstep => ⟨h.1.step hstep, h.2.step h.1 hok hstep⟩)
    ⟨hinit, by constructor <;> simp [newDrainController]⟩ hfixed hrun
  refine ⟨h.past, fun hstate t ht hle => ?_⟩
  have hnone := (honce.unforced (hstate ▸ nofun)).2
  cases hfired : s.fired with
  | true => exact ⟨fun k => if_neg (by simp [hfired]), _, exists_settled hfired hstate hnone⟩
  | false =>
    obtain ⟨u, hu⟩ := ne_none_iff_exists'.mp ((h.live hstate).resolve_left (by simp [hfired]))
    have hdue : u ≤ s.now := by
      have hmax := (h.armed u hu).2 t ht
      omega
    have hfire : s.step .fire = some { s with timer := none, fired := true } := by
      simp only [DrainController.step, hu, if_pos hdue]
    refine ⟨fun k => if_neg fun hwait => ?_, .fire :: [.runTimer, .settle], ?_⟩
    · have hle := hwait.1 u hu
      omega
    · obtain ⟨s', hrun', hsettled⟩ := exists_settled (s := { s with timer := none, fired := true })
        rfl hstate hnone
      exact ⟨s', run_cons_eq_some.mpr ⟨_, hfire, hrun'⟩, hsettled⟩

theorem settles_at_deadline_again : ∃ s acts s',
    run step (newDrainController (some 1) (some 0)) [.drain 100, .wait 60, .drain 40,
      .wait 40] = some s ∧ run step s acts = some s' ∧ s'.settled = [100] := by
  obtain ⟨s, hrun, hstate, hasked, hnow⟩ := exists_of_run step
    (newDrainController (some 1) (some 0)) [.drain 100, .wait 60, .drain 40, .wait 40]
    (fun s => s.state = .draining ∧ s.asked = some 100 ∧ s.now = 100) (by decide)
  obtain ⟨-, acts, s', hrun', hsettled⟩ :=
    ((settles_at_deadline hrun).2 (by decide)).2 hstate 100 hasked hnow.ge
  exact ⟨s, acts, s', hrun, hrun', hnow ▸ hsettled⟩

/-- A later deadline is not waited for, and an earlier one is missed. -/
theorem deadline_not_moved :
    (∃ s, run step (newDrainController (some 1) (some 0)) [.drain 10, .wait 5, .drain 20,
      .wait 5, .fire, .runTimer, .settle] = some s ∧ s.settled = [10] ∧ s.asked = some 25) ∧
    ∃ s, run step (newDrainController (some 1) (some 0)) [.drain 10, .drain 5,
      .wait 10] = some s ∧ s.state = .draining ∧ s.asked = some 5 ∧ s.now = 10 ∧ s.settled = [] :=
  ⟨exists_of_run _ _ _ _ (by decide), exists_of_run _ _ _ _ (by decide)⟩

end DrainController

end RanGame.Cluster
