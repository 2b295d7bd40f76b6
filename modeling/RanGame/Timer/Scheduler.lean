import RanGame.Lib.IndexedHeap
import RanGame.Lib.Machine
import Mathlib.Algebra.Order.Ring.Int

/-!
# The timer scheduler

`internal/timer/scheduler.go`, with calls of `After`, `Every`, `Cancel` and `Close` at any moment,
also from callbacks, which the loop runs itself. The loop holds the mutex while it collects what is
due, but not while it runs it: a task of the batch that is cancelled before its turn runs all the
same.
-/

namespace RanGame.Timer

open Function List Machine Option

/-- Where `loop` is. -/
inductive Loop
  | top
  | selecting (wait : ℤ)
  | waiting (deadline : ℤ)
  | woken (now : ℤ)
  /-- The mutex is held. -/
  | collecting (now : ℤ) (due : List ℕ)
  | draining (now : ℤ) (due : List ℕ)
  | running (now : ℤ) (t : ℕ) (due : List ℕ)
  | stopped
  deriving DecidableEq

/-- The tasks of the batch that have not been started. -/
def Loop.due : Loop → List ℕ
  | .collecting _ due | .draining _ due | .running _ _ due => due
  | _ => []

/-- The same with the one that is running. -/
def Loop.batch : Loop → List ℕ
  | .running _ t due => t :: due
  | l => l.due

def Loop.locked : Loop → Bool
  | .collecting .. => true
  | _ => false

/-- No tasks are being collected or run. -/
def Loop.idle : Loop → Bool
  | .top | .selecting _ | .waiting _ | .stopped => true
  | _ => false

theorem Loop.due_of_idle {l : Loop} (hl : l.idle = true) : l.due = [] ∧ l.batch = [] := by
  cases l <;> first | exact ⟨rfl, rfl⟩ | cases hl

/-- A callback has been started. -/
structure Run where
  task : ℕ
  due : ℤ
  start : ℤ
  wakeUp : ℕ
  deriving DecidableEq

/-- `Scheduler` and its clock. A task is known by the number of the `add` that has made it. -/
structure Scheduler where
  clock : ℤ
  count : ℕ
  fireAt : ℕ → ℤ
  interval : ℕ → ℤ
  cancelled : ℕ → Bool
  tasks : IndexedHeap ℕ
  closed : Bool
  /-- Something is in the channel `wake`. -/
  wake : Bool
  loop : Loop
  wakeUps : ℕ
  /-- History. -/
  runs : List Run

/-- What can happen. The swaps are those that `container/heap` makes. -/
inductive SchedulerAct
  | advance (k : ℕ)
  /-- `now` was read before the mutex was locked. -/
  | after (d now : ℤ) (swaps : List (ℕ × ℕ))
  | every (d now : ℤ) (swaps : List (ℕ × ℕ))
  | cancel (t : ℕ) (swaps : List (ℕ × ℕ))
  | close
  | look
  | sleep
  | stop
  | wakeUp
  | elapse
  | lock
  | pop (swaps : List (ℕ × ℕ))
  | unlock
  | exec
  | returned (swaps : List (ℕ × ℕ))
  | again

namespace Scheduler

variable (s : Scheduler)

def newScheduler (now : ℤ) : Scheduler where
  clock := now
  count := 0
  fireAt _ := 0
  interval _ := 0
  cancelled _ := false
  tasks := .empty
  closed := false
  wake := false
  loop := .top
  wakeUps := 0
  runs := []

def add (first interval now : ℤ) (swaps : List (ℕ × ℕ)) : Scheduler :=
  let t := s.count
  let tasks := if s.closed then s.tasks else s.tasks.heapPush t swaps
  { s with
    count := t + 1
    fireAt := update s.fireAt t (now + first)
    interval := update s.interval t interval
    cancelled := update s.cancelled t s.closed
    tasks := tasks
    wake := s.wake || !s.closed && decide (s.tasks.items = [] ∨ tasks.items.head? = some t) }

def cancel (t : ℕ) (swaps : List (ℕ × ℕ)) : Scheduler :=
  if s.cancelled t then s
  else { s with
    cancelled := update s.cancelled t true
    tasks :=
      if 0 ≤ s.tasks.index t ∧ s.tasks.index t < s.tasks.items.length then
        (s.tasks.heapRemove (s.tasks.index t).toNat swaps).elim s.tasks Prod.snd
      else s.tasks }

/-- `rearm`, and the test before it. What the test has read of `cancelled` is read again. -/
def rearm (now : ℤ) (t : ℕ) (swaps : List (ℕ × ℕ)) : Scheduler :=
  if 0 < s.interval t ∧ ¬ (s.closed ∨ s.cancelled t) then { s with
    fireAt := update s.fireAt t (now + s.interval t)
    tasks := s.tasks.heapPush t swaps
    wake := true }
  else s

/-- How long the loop is to wait, in nanoseconds. -/
def wait : ℤ :=
  match s.tasks.items with
  | [] => 3600000000000
  | t :: _ => max (s.fireAt t - s.clock) 0

def step (s : Scheduler) (a : SchedulerAct) : Option Scheduler :=
  match a, s.loop with
  | .advance k, _ => some { s with clock := s.clock + k }
  | .after d now swaps, l =>
    if now ≤ s.clock ∧ l.locked = false then some (s.add d 0 now swaps) else none
  | .every d now swaps, l =>
    if now ≤ s.clock ∧ l.locked = false then some (s.add d d now swaps) else none
  | .cancel t swaps, l =>
    if t < s.count ∧ l.locked = false then some (s.cancel t swaps) else none
  | .close, l => if l.locked = false then some { s with closed := true } else none
  | .look, .top => some { s with loop := if s.closed then .stopped else .selecting s.wait }
  | .sleep, .selecting wait => some { s with loop := .waiting (s.clock + wait) }
  | .stop, .waiting _ => if s.closed then some { s with loop := .stopped } else none
  | .wakeUp, .waiting _ => if s.wake then some { s with loop := .top, wake := false } else none
  | .elapse, .waiting deadline =>
    if deadline ≤ s.clock then
      some { s with loop := .woken s.clock, wakeUps := s.wakeUps + 1 }
    else none
  | .lock, .woken now => some { s with loop := .collecting now [] }
  | .pop swaps, .collecting now due =>
    if ∃ t ∈ s.tasks.items.head?, s.fireAt t ≤ now then
      (s.tasks.heapPop swaps).map fun (t, tasks) => { s with
        tasks := tasks
        loop := .collecting now (if s.cancelled t then due else due ++ [t]) }
    else none
  | .unlock, .collecting now due =>
    if ∃ t ∈ s.tasks.items.head?, s.fireAt t ≤ now then none
    else some { s with loop := .draining now due }
  | .exec, .draining now (t :: due) => some { s with
      loop := .running now t due
      runs := s.runs ++ [⟨t, s.fireAt t, s.clock, s.wakeUps⟩] }
  | .returned swaps, .running now t due =>
    some { s.rearm now t swaps with loop := .draining now due }
  | .again, .draining _ [] => some { s with loop := .top }
  | _, _ => none

variable {s} {s' : Scheduler} {a : SchedulerAct}

/-- What a step does to the tasks. -/
inductive Happens (s : Scheduler) : Scheduler → Prop
  | advance (k : ℕ) : Happens s { s with clock := s.clock + k }
  | add {first interval now tasks wake} (hfree : s.loop.locked = false) (hp : tasks.Placed)
      (hpush : s.closed = true ∧ tasks = s.tasks ∨
        s.closed = false ∧ tasks.items ~ s.count :: s.tasks.items) : Happens s { s with
      count := s.count + 1, fireAt := update s.fireAt s.count (now + first)
      interval := update s.interval s.count interval
      cancelled := update s.cancelled s.count s.closed, tasks := tasks
      wake := wake }
  | cancel {t tasks} (hp : tasks.Placed) (hfree : s.loop.locked = false) (ht : t < s.count)
      (hperm : tasks.items ~ s.tasks.items.erase t) :
      Happens s { s with cancelled := update s.cancelled t true, tasks := tasks }
  | cancelAgain {t} (ht : s.cancelled t = true) : Happens s s
  | close : Happens s { s with closed := true }
  | rest {loop wake} (hidle : s.loop.idle = true) (hidle' : loop.idle = true) :
      Happens s { s with loop := loop, wake := wake }
  | elapse {deadline} (hl : s.loop = .waiting deadline) :
      Happens s { s with loop := .woken s.clock, wakeUps := s.wakeUps + 1 }
  | lock {now} (hl : s.loop = .woken now) : Happens s { s with loop := .collecting now [] }
  | pop {now due t tasks} (hl : s.loop = .collecting now due) (hhead : s.tasks.items.head? = some t)
      (hdue : s.fireAt t ≤ now) (hp : tasks.Placed) (hperm : s.tasks.items ~ t :: tasks.items) :
      Happens s { s with tasks := tasks, loop := .collecting now (due ++ [t]) }
  | unlock {now due} (hl : s.loop = .collecting now due)
      (hnone : ∀ t ∈ s.tasks.items.head?, now < s.fireAt t) :
      Happens s { s with loop := .draining now due }
  | exec {now t due} (hl : s.loop = .draining now (t :: due)) : Happens s { s with
      loop := .running now t due
      runs := s.runs ++ [⟨t, s.fireAt t, s.clock, s.wakeUps⟩] }
  | rearm {now t due tasks} (hl : s.loop = .running now t due) (hlive : s.cancelled t = false)
      (hpos : 0 < s.interval t) (hp : tasks.Placed) (hperm : tasks.items ~ t :: s.tasks.items) :
      Happens s { s with
        fireAt := update s.fireAt t (now + s.interval t), tasks := tasks, wake := true
        loop := .draining now due }
  | leave {now t due} (hl : s.loop = .running now t due) :
      Happens s { s with loop := .draining now due }
  | again {now} (hl : s.loop = .draining now []) : Happens s { s with loop := .top }

/-- Where the tasks are: in the heap, which knows where, or in the batch. -/
structure Sound (s : Scheduler) : Prop where
  placed : s.tasks.Placed
  live : ∀ t ∈ s.tasks.items, s.cancelled t = false ∧ t < s.count ∧ t ∉ s.loop.batch
  known : ∀ t ∈ s.loop.batch, t < s.count
  nodup : s.loop.batch.Nodup

theorem Sound.add (h : s.Sound) {first interval now : ℤ} {swaps : List (ℕ × ℕ)}
    (hfree : s.loop.locked = false) : s.Happens (s.add first interval now swaps) := by
  have hnew : s.count ∉ s.tasks.items := fun hmem => (h.live _ hmem).2.1.ne rfl
  obtain ⟨hp, hperm⟩ : (s.tasks.heapPush s.count swaps).Placed ∧ _ := h.placed.heapPush hnew
  refine .add hfree ?_ ?_
  · split
    · exact h.placed
    · exact hp
  · split
    next hclosed => exact .inl ⟨hclosed, rfl⟩
    next hopen => exact .inr ⟨by simpa using hopen, hperm⟩

theorem Sound.cancel_items (h : s.Sound) (t : ℕ) (swaps : List (ℕ × ℕ)) :
    (s.cancel t swaps).tasks.Placed ∧
      (s.cancel t swaps).tasks.items ~ s.tasks.items.erase t := by
  by_cases hmem : t ∈ s.tasks.items
  · obtain ⟨i, hi, hindex⟩ := h.placed.exists_index hmem
    obtain ⟨tasks, htakes, hp, hperm⟩ : s.tasks.TakesOut t (s.tasks.heapRemove i swaps) :=
      h.placed.heapRemove hi
    have hlt := (List.getElem?_eq_some_iff.mp hi).1
    have hout : (s.cancel t swaps).tasks = tasks := by
      rw [Scheduler.cancel, if_neg (by simp [(h.live t hmem).1])]
      show (if _ then _ else _) = tasks
      rw [if_pos (by omega), hindex, Int.toNat_natCast, htakes]
      rfl
    have herase := hperm.erase t
    rw [erase_cons_head] at herase
    exact hout ▸ ⟨hp, herase.symm⟩
  · have hsame : (s.cancel t swaps).tasks = s.tasks := by
      unfold Scheduler.cancel
      split
      · rfl
      · exact if_neg (by rw [h.placed.absent t hmem]; omega)
    rw [hsame, erase_of_not_mem hmem]
    exact ⟨h.placed, .refl _⟩

theorem Sound.cancel (h : s.Sound) {t : ℕ} {swaps : List (ℕ × ℕ)} (ht : t < s.count)
    (hfree : s.loop.locked = false) : s.Happens (s.cancel t swaps) := by
  obtain ⟨hp, hperm⟩ := h.cancel_items t swaps
  unfold Scheduler.cancel at hp hperm ⊢
  split at hp
  next hc =>
    rw [if_pos hc]
    exact .cancelAgain hc
  next hc =>
    rw [if_neg hc] at hperm ⊢
    exact .cancel hp hfree ht hperm

theorem Sound.happens (h : s.Sound) (hstep : s.step a = some s') : s.Happens s' := by
  unfold Scheduler.step at hstep
  split at hstep
  next k => exact some.inj hstep ▸ .advance k
  next =>
    obtain ⟨⟨-, hfree⟩, ⟨⟩⟩ := ite_none_right_eq_some.mp hstep
    exact h.add hfree
  next =>
    obtain ⟨⟨-, hfree⟩, ⟨⟩⟩ := ite_none_right_eq_some.mp hstep
    exact h.add hfree
  next =>
    obtain ⟨⟨ht, hfree⟩, ⟨⟩⟩ := ite_none_right_eq_some.mp hstep
    exact h.cancel ht hfree
  next =>
    obtain ⟨-, ⟨⟩⟩ := ite_none_right_eq_some.mp hstep
    exact .close
  next hl =>
    cases hstep
    refine .rest (by rw [hl]; rfl) ?_
    split <;> rfl
  next hl => exact some.inj hstep ▸ .rest (by rw [hl]; rfl) rfl
  next hl =>
    obtain ⟨-, ⟨⟩⟩ := ite_none_right_eq_some.mp hstep
    exact .rest (by rw [hl]; rfl) rfl
  next hl =>
    obtain ⟨-, ⟨⟩⟩ := ite_none_right_eq_some.mp hstep
    exact .rest (by rw [hl]; rfl) rfl
  next hl =>
    obtain ⟨-, ⟨⟩⟩ := ite_none_right_eq_some.mp hstep
    exact .elapse hl
  next hl => exact some.inj hstep ▸ .lock hl
  next swaps now due hl =>
    obtain ⟨⟨t, hhead, hdue⟩, hstep⟩ := ite_none_right_eq_some.mp hstep
    obtain ⟨tasks, htakes, hp, hperm⟩ : s.tasks.TakesOut t (s.tasks.heapPop swaps) :=
      h.placed.heapPop (head?_eq_getElem? ▸ hhead)
    rw [htakes] at hstep
    cases hstep
    simp only [(h.live t (hperm.mem_iff.mpr mem_cons_self)).1]
    exact .pop hl hhead hdue hp hperm
  next hl =>
    obtain ⟨hnone, ⟨⟩⟩ := ite_none_left_eq_some.mp hstep
    exact .unlock hl fun t ht => not_le.mp fun hle => hnone ⟨t, ht, hle⟩
  next hl => exact some.inj hstep ▸ .exec hl
  next swaps now t due hl =>
    cases hstep
    unfold rearm
    split
    next hre =>
      rw [not_or, Bool.not_eq_true, Bool.not_eq_true] at hre
      have hout : t ∉ s.tasks.items := fun hmem => (h.live t hmem).2.2 (by simp [hl, Loop.batch])
      obtain ⟨hp, hperm⟩ : (s.tasks.heapPush t swaps).Placed ∧ _ := h.placed.heapPush hout
      exact .rearm hl hre.2.2 hre.1 hp hperm
    · exact .leave hl
  next hl => exact some.inj hstep ▸ .again hl
  · cases hstep

theorem Sound.step (h : s.Sound) (hstep : s.step a = some s') : s'.Sound := by
  obtain ⟨hplaced, hlive, hknown, hnodup⟩ := id h
  cases h.happens hstep with
  | advance | close | cancelAgain => exact { h with }
  | add _ hp hpush =>
    refine ⟨hp, fun t ht => ?_, fun t ht => (hknown t ht).trans (Nat.lt_succ_self _), hnodup⟩
    have hold : ∀ t ∈ s.tasks.items, update s.cancelled s.count s.closed t = false ∧
        t < s.count + 1 ∧ t ∉ s.loop.batch := by
      intro t ht
      obtain ⟨hc, hlt, hout⟩ := hlive t ht
      exact ⟨(update_of_ne hlt.ne ..).trans hc, by omega, hout⟩
    obtain ⟨-, rfl⟩ | ⟨hopen, hperm⟩ := hpush
    · exact hold t ht
    obtain rfl | ht := mem_cons.mp (hperm.mem_iff.mp ht)
    · exact ⟨(update_self ..).trans hopen, Nat.lt_succ_self _, fun hb => (hknown _ hb).ne rfl⟩
    · exact hold t ht
  | cancel hp _ _ hperm =>
    refine ⟨hp, fun u hu => ?_, hknown, hnodup⟩
    obtain ⟨hne, hu⟩ := hplaced.nodup.mem_erase_iff.mp (hperm.mem_iff.mp hu)
    exact ⟨(update_of_ne hne ..).trans (hlive u hu).1, (hlive u hu).2⟩
  | rest _ hidle =>
    obtain ⟨-, hnil⟩ := Loop.due_of_idle hidle
    exact ⟨hplaced, by simpa [hnil] using fun t ht => ⟨(hlive t ht).1, (hlive t ht).2.1⟩,
      by simp [hnil], by simp [hnil]⟩
  | elapse | lock | again =>
    exact ⟨hplaced, fun t ht => ⟨(hlive t ht).1, (hlive t ht).2.1, not_mem_nil⟩, nofun, nodup_nil⟩
  | @pop now due t tasks hl hhead hdue hp hperm =>
    rw [hl] at hlive hknown hnodup
    obtain ⟨-, hlt, hout⟩ := hlive t (mem_of_head? hhead)
    have ht : t ∉ tasks.items := (nodup_cons.mp (hperm.nodup_iff.mp hplaced.nodup)).1
    refine ⟨hp, fun u hu => ?_, ?_, ?_⟩
    · obtain ⟨hc, hlt', hout'⟩ := hlive u (hperm.mem_iff.mpr (mem_cons_of_mem _ hu))
      refine ⟨hc, hlt', fun hb => (mem_append.mp hb).elim hout' fun hb => ?_⟩
      exact ht (mem_singleton.mp hb ▸ hu)
    · exact forall_mem_append.mpr ⟨hknown, forall_mem_singleton.mpr hlt⟩
    · refine nodup_append.mpr ⟨hnodup, nodup_singleton t, fun u hu v hv huv => hout ?_⟩
      rwa [← mem_singleton.mp hv, ← huv]
  | unlock hl | exec hl =>
    rw [hl] at hlive hknown hnodup
    exact ⟨hplaced, hlive, hknown, hnodup⟩
  | rearm hl hcancel _ hp hperm =>
    rw [hl] at hlive hknown hnodup
    obtain ⟨ht, hnodup⟩ := nodup_cons.mp hnodup
    refine ⟨hp, fun u hu => ?_, fun u hu => hknown u (mem_cons_of_mem _ hu), hnodup⟩
    obtain rfl | hu := mem_cons.mp (hperm.mem_iff.mp hu)
    · exact ⟨hcancel, hknown u mem_cons_self, ht⟩
    · obtain ⟨hc, hlt, hout⟩ := hlive u hu
      exact ⟨hc, hlt, fun hb => hout (mem_cons_of_mem _ hb)⟩
  | leave hl =>
    rw [hl] at hlive hknown hnodup
    refine ⟨hplaced, fun u hu => ?_, fun u hu => hknown u (mem_cons_of_mem _ hu),
      (nodup_cons.mp hnodup).2⟩
    obtain ⟨hc, hlt, hout⟩ := hlive u hu
    exact ⟨hc, hlt, fun hb => hout (mem_cons_of_mem _ hb)⟩

theorem sound_of_run {now : ℤ} {acts : List SchedulerAct}
    (hrun : run step (newScheduler now) acts = some s) : s.Sound := by
  refine invariant_of_run (fun _ _ _ h _ => h.step) ?_ along_true hrun
  exact ⟨IndexedHeap.placed_empty, nofun, nofun, nodup_nil⟩

/-- **The heap and the indices agree.** Each task is at most once in the heap; its index is its
place there, or `-1`; no cancelled task is in it; and `Cancel` removes no other. -/
theorem indices_agree {now : ℤ} {acts : List SchedulerAct}
    (hrun : run step (newScheduler now) acts = some s) :
    s.tasks.items.Nodup ∧ (∀ (i : ℕ) t, s.tasks.items[i]? = some t → s.tasks.index t = i) ∧
      (∀ t ∉ s.tasks.items, s.tasks.index t = -1) ∧ (∀ t ∈ s.tasks.items, s.cancelled t = false) ∧
      ∀ t swaps s', s.step (.cancel t swaps) = some s' →
        s'.tasks.items ~ s.tasks.items.erase t := by
  have h := sound_of_run hrun
  refine ⟨h.placed.nodup, h.placed.index, h.placed.absent, fun t ht => (h.live t ht).1, ?_⟩
  intro t swaps s' hstep
  obtain ⟨-, ⟨⟩⟩ := ite_none_right_eq_some.mp hstep
  exact (h.cancel_items t swaps).2

theorem indices_agree_three : ∃ s s', run step (newScheduler 0) [.after 5 0 [], .every 3 0 [(0, 1)],
    .after 9 0 []] = some s ∧ s.step (.cancel 1 [(0, 1)]) = some s' ∧ s'.tasks.items ~ [0, 2] := by
  obtain ⟨s, s', hrun, hstep, hitems⟩ := exists_of_run_step step (newScheduler 0)
    [.after 5 0 [], .every 3 0 [(0, 1)], .after 9 0 []] (.cancel 1 [(0, 1)])
    (fun s _ => s.tasks.items = [1, 0, 2]) (by decide)
  have hperm := (indices_agree hrun).2.2.2.2 1 _ s' hstep
  rw [hitems] at hperm
  exact ⟨s, s', hrun, hstep, hperm⟩

/-! ### Cancelled tasks -/

/-- Task `t` has been cancelled, and is not in the batch. -/
structure Dropped (t : ℕ) (s : Scheduler) : Prop where
  known : t < s.count
  cancelled : s.cancelled t = true
  out : t ∉ s.loop.due

theorem Dropped.step {t : ℕ} (hd : Dropped t s) (h : s.Sound) (hstep : s.step a = some s') :
    Dropped t s' ∧ s'.runs.filter (·.task = t) = s.runs.filter (·.task = t) := by
  obtain ⟨hknown, hcancelled, hout⟩ := id hd
  cases h.happens hstep with
  | advance | close | cancelAgain => exact ⟨{ hd with }, rfl⟩
  | add =>
    exact ⟨⟨hknown.trans (Nat.lt_succ_self _), (update_of_ne hknown.ne ..).trans hcancelled, hout⟩,
      rfl⟩
  | @cancel u =>
    refine ⟨⟨hknown, ?_, hout⟩, rfl⟩
    show update s.cancelled u true t = true
    by_cases htu : t = u
    · rw [htu, update_self]
    · rw [update_of_ne htu, hcancelled]
  | rest _ hidle => exact ⟨⟨hknown, hcancelled, by simp [Loop.due_of_idle hidle]⟩, rfl⟩
  | elapse | lock | again => exact ⟨⟨hknown, hcancelled, not_mem_nil⟩, rfl⟩
  | @pop _ due u _ hl hhead =>
    rw [hl] at hout
    refine ⟨⟨hknown, hcancelled, ?_⟩, rfl⟩
    intro hmem
    obtain hmem | hmem := mem_append.mp hmem
    · exact hout hmem
    · obtain ⟨hlive, -⟩ := h.live u (mem_of_head? hhead)
      rw [← mem_singleton.mp hmem, hcancelled] at hlive
      cases hlive
  | @exec _ u due hl =>
    rw [hl] at hout
    have hne : u ≠ t := fun heq => hout (heq ▸ mem_cons_self)
    refine ⟨⟨hknown, hcancelled, fun hmem => hout (mem_cons_of_mem _ hmem)⟩, ?_⟩
    show (s.runs ++ [_]).filter _ = _
    rw [filter_append, filter_singleton]
    simp [hne]
  | unlock hl | rearm hl | leave hl =>
    rw [hl] at hout
    exact ⟨⟨hknown, hcancelled, hout⟩, rfl⟩

/-- **A cancelled task is not run any more**, unless it was in the loop's batch when `Cancel` was
called. -/
theorem cancelled_not_run {now : ℤ} {acts acts' : List SchedulerAct} {s₁ : Scheduler} {t : ℕ}
    {swaps : List (ℕ × ℕ)} (hrun : run step (newScheduler now) acts = some s)
    (hcancel : s.step (.cancel t swaps) = some s₁) (hdue : t ∉ s.loop.due)
    (hrun' : run step s₁ acts' = some s') :
    s'.runs.filter (·.task = t) = s₁.runs.filter (·.task = t) := by
  have h := sound_of_run hrun
  obtain ⟨⟨ht, -⟩, hs₁⟩ := ite_none_right_eq_some.mp hcancel
  have hdropped : Dropped t s₁ := by
    cases hs₁
    unfold Scheduler.cancel
    split
    next hc => exact ⟨ht, hc, hdue⟩
    · exact ⟨ht, update_self .., hdue⟩
  have hkeep := invariant_of_run (I := fun s => s.Sound ∧ Dropped t s ∧
      s.runs.filter (·.task = t) = s₁.runs.filter (·.task = t))
    (fun _ _ _ hI _ hstep => ⟨hI.1.step hstep, (hI.2.1.step hI.1 hstep).1,
      (hI.2.1.step hI.1 hstep).2.trans hI.2.2⟩) ⟨h.step hcancel, hdropped, rfl⟩ along_true hrun'
  exact hkeep.2.2

/-- Two tasks are due at the same time. -/
def bothDueActs : List SchedulerAct :=
  [.after 5 0 [], .after 5 0 [], .look, .sleep, .advance 5, .elapse, .lock]

/-- The second one is cancelled before the loop has collected it. -/
theorem cancelled_not_run_before : ∃ s s₁ s', run step (newScheduler 0)
    (bothDueActs.take 5) = some s ∧ s.step (.cancel 1 []) = some s₁ ∧
    run step s₁ [.elapse, .lock, .pop [], .unlock, .exec, .returned [], .again] = some s' ∧
    s'.runs.filter (·.task = 1) = [] := by
  obtain ⟨s, s₁, hrun, hcancel, hs⟩ := exists_of_run_step step (newScheduler 0)
    (bothDueActs.take 5) (.cancel 1 []) (fun s s₁ => 1 ∉ s.loop.due ∧ s₁.runs = [] ∧
      (run step s₁ [.elapse, .lock, .pop [], .unlock, .exec, .returned [], .again]).isSome = true)
    (by decide)
  obtain ⟨hdue, hruns, hsome⟩ := hs
  obtain ⟨s', hrun'⟩ := isSome_iff_exists.mp hsome
  have hsame := cancelled_not_run hrun hcancel hdue hrun'
  rw [hruns] at hsame
  exact ⟨s, s₁, s', hrun, hcancel, hrun', hsame⟩

/-- The callback of the first cancels the second, which is run after that. -/
theorem cancelled_run : ∃ s s₁ s',
    run step (newScheduler 0) (bothDueActs ++ [.pop [], .pop [], .unlock, .exec]) = some s ∧
    s.step (.cancel 1 []) = some s₁ ∧ s₁.runs.map (·.task) = [0] ∧
    run step s₁ [.returned [], .exec] = some s' ∧ s'.runs.map (·.task) = [0, 1] := by
  obtain ⟨s, s₁, hrun, hcancel, hruns, hs₁⟩ := exists_of_run_step step (newScheduler 0)
    (bothDueActs ++ [.pop [], .pop [], .unlock, .exec]) (.cancel 1 [])
    (fun _ s₁ => s₁.runs.map (·.task) = [0] ∧
      (run step s₁ [.returned [], .exec]).any (·.runs.map (·.task) = [0, 1]) = true) (by decide)
  obtain ⟨s', hrun', hruns'⟩ := (any_eq_true _ _).mp hs₁
  exact ⟨s, s₁, s', hrun, hcancel, hruns, hrun', of_decide_eq_true hruns'⟩

end Scheduler

end RanGame.Timer
