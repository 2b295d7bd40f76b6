import RanGame.Session.Registry
import RanGame.Session.Tokens

/-!
# What a sweep may destroy

`Sweep` collects the sessions that have been offline for the grace period and then destroys them one
after the other, without looking whether they are still offline. A `Reconnect` that falls in between
succeeds, and then its session is destroyed under the new connection.
-/

namespace RanGame.Session

open Machine Function

section Call

variable {n : ℕ} {C : Type*}

/-- The candidates a sweep has not finished with, among them the one it is destroying. -/
def Call.sweeps : Call n C → List (Fin n)
  | .destroying todo => todo
  | .taking x (.swept todo) | .releasing x _ (.swept todo) | .closing x _ (.swept todo)
  | .notifying x (.swept todo) => x :: todo
  | _ => []

/-- Has the call collected its candidates? -/
def Call.examined : Call n C → Bool
  | .destroying _ | .taking _ (.swept _) | .releasing _ _ (.swept _) | .closing _ _ (.swept _)
  | .notifying _ (.swept _) => true
  | _ => false

/-- The session of a reconnect that has been accepted and has not returned. -/
def Call.reconnects : Call n C → Option (Fin n)
  | .binding r | .onlining r _ | .clearing r _ | .reindexing r _ | .closingOld r _ => some r.sess
  | _ => none

/-- The session a reconnect has found and whose token it is about to rotate. -/
def Call.found : Call n C → Option (Fin n)
  | .rotating x _ _ _ => some x
  | _ => none

def Call.now : Call n C → Option ℤ
  | .sweeping now => some now
  | _ => none

def ManagerAct.rotates : ManagerAct n C → Option (Fin n)
  | .rotate i _ => some i
  | _ => none

end Call

namespace Manager

variable {n : ℕ} {C : Type*} {cfg : Config}

/-- A reconnect is accepted only if no sweep has its session on the list. -/
def Unlisted (s : Manager n C) (a : ManagerAct n C) : Prop :=
  ∀ i ∈ a.rotates, ∀ x ∈ (s.calls i).found, ∀ j, x ∉ (s.calls j).sweeps

instance (s : Manager n C) (a : ManagerAct n C) : Decidable (s.Unlisted a) :=
  inferInstanceAs (Decidable (∀ i ∈ a.rotates, _))

/-- A sweep lists only sessions of which no reconnect is under way. -/
def Unhurried (cfg : Config) (s : Manager n C) (a : ManagerAct n C) : Prop :=
  ∀ j, a = .examine j → ∀ now ∈ (s.calls j).now, ∀ x ∈ s.candidates cfg now,
    ∀ i, (s.calls i).reconnects ≠ some x

instance [DecidableEq C] (s : Manager n C) (a : ManagerAct n C) : Decidable (s.Unhurried cfg a) :=
  inferInstanceAs (Decidable (∀ _, _))

/-- Sweeps and reconnects keep out of each other's way. -/
def Separate (cfg : Config) (s : Manager n C) (a : ManagerAct n C) : Prop :=
  s.Unlisted a ∧ s.Unhurried cfg a

instance [DecidableEq C] (s : Manager n C) (a : ManagerAct n C) : Decidable (s.Separate cfg a) :=
  inferInstanceAs (Decidable (_ ∧ _))

/-- Offline, and for the grace period at least since it last went offline. -/
def Overdue (cfg : Config) (s : Manager n C) (x : Fin n) : Prop :=
  (s.sess x).st = .stateOffline ∧ cfg.gracePeriod ≤ s.clock - (s.sess x).since

/-- What holds of the lists of the sweeps. -/
structure Listed (cfg : Config) (s : Manager n C) : Prop where
  apart : ∀ i j, ∀ x ∈ (s.calls i).reconnects, x ∉ (s.calls j).sweeps
  started : ∀ j, ∀ x ∈ (s.calls j).sweeps, s.calls x ≠ .notStarted
  now_le : ∀ j, ∀ now ∈ (s.calls j).now, now ≤ s.clock
  since : ∀ x, (s.sess x).st = .stateOffline → (s.sess x).offlineAt ≠ 0 →
    (s.sess x).offlineAt = (s.sess x).since
  overdue : ∀ j, ∀ x ∈ (s.calls j).sweeps, s.Registered x → s.Overdue cfg x

theorem listed_newManager (clock : ℤ) : (newManager n C clock).Listed cfg where
  apart := fun _ _ _ h => by simp [newManager, Call.reconnects] at h
  started := fun _ _ h => by simp [newManager, Call.sweeps] at h
  now_le := fun _ _ h => by simp [newManager, Call.now] at h
  since := fun _ _ h => absurd rfl h
  overdue := fun _ _ h => by simp [newManager, Call.sweeps] at h

variable {s s' : Manager n C}

variable {i : Fin n} {k : Call n C} {a : ManagerAct n C}

section

variable (h : s.Listed cfg) (hcalls : s'.calls = update s.calls i k) (hk : k ≠ .notStarted)
  (hrec : ∀ x ∈ k.reconnects, ∀ j, x ∉ (s.calls j).sweeps) (hsweeps : k.sweeps ⊆ (s.calls i).sweeps)
  (hnow : ∀ now ∈ k.now, now ≤ s.clock) (hclock : s'.clock = s.clock)

include h hcalls hk hrec hsweeps hnow hclock

/-- What is left to show is that the listed sessions that are registered are still overdue. -/
theorem Listed.of_moved (hsince : ∀ x, (s'.sess x).st = .stateOffline → (s'.sess x).offlineAt ≠ 0 →
    (s'.sess x).offlineAt = (s'.sess x).since)
    (hover : ∀ j, ∀ x ∈ (s.calls j).sweeps, s'.Registered x → s'.Overdue cfg x) :
    s'.Listed cfg := by
  have hsweeps' : ∀ j, (s'.calls j).sweeps ⊆ (s.calls j).sweeps := by
    intro j
    rw [hcalls]
    exact rel_update (fun k k' : Call n C => k'.sweeps ⊆ k.sweeps)
      (fun _ => List.Subset.refl _) hsweeps j
  refine ⟨?_, ?_, ?_, hsince, ?_⟩
  · intro j j' x hx hx'
    rw [hcalls] at hx
    rcases of_update (P := fun k : Call n C => x ∈ k.reconnects) hx with ⟨-, hx⟩ | ⟨-, hx⟩
    · exact hrec x hx j' (hsweeps' j' hx')
    · exact h.apart j j' x hx (hsweeps' j' hx')
  · intro j x hx
    rw [hcalls]
    exact started_update hk (h.started j x (hsweeps' j hx))
  · intro j now hj
    rw [hclock]
    rw [hcalls] at hj
    rcases of_update (P := fun k : Call n C => now ∈ k.now) hj with ⟨-, hj⟩ | ⟨-, hj⟩
    · exact hnow now hj
    · exact h.now_le j now hj
  · intro j x hx
    exact hover j x (hsweeps' j hx)

theorem Listed.of_same (hsess : s'.sess = s.sess) (hreg : ∀ x, s'.Registered x → s.Registered x) :
    s'.Listed cfg := by
  refine h.of_moved hcalls hk hrec hsweeps hnow hclock ?_ ?_
  · rw [hsess]
    exact h.since
  · intro j x hx hx'
    rw [Overdue, hsess, hclock]
    exact h.overdue j x hx (hreg x hx')

end

theorem Listed.of_sess (h : s.Listed cfg) {y : Fin n} {r : Sess C}
    (hsess : s'.sess = update s.sess y r) (hindex : s'.byUID = s.byUID)
    (hclock : s'.clock = s.clock) (hcalls : s'.calls = update s.calls i k)
    (hk : k ≠ .notStarted) (hrec : ∀ x ∈ k.reconnects, ∀ j, x ∉ (s.calls j).sweeps)
    (hsweeps : k.sweeps ⊆ (s.calls i).sweeps) (hnow : k.now = none) (huid : r.uid = (s.sess y).uid)
    (hsince : r.st = .stateOffline → r.offlineAt ≠ 0 → r.offlineAt = r.since)
    (hover : ∀ j, y ∈ (s.calls j).sweeps → s.Registered y → r.st = .stateOffline ∧
      cfg.gracePeriod ≤ s.clock - r.since) :
    s'.Listed cfg := by
  refine h.of_moved hcalls hk hrec hsweeps (by simp [hnow]) hclock ?_ ?_
  · intro x
    rw [hsess]
    by_cases hx : x = y
    · subst hx
      rwa [update_self]
    · rw [update_of_ne hx]
      exact h.since x
  · intro j x hx hreg
    rw [Registered, hsess, hindex, apply_update_of_eq Sess.uid huid x] at hreg
    rw [Overdue, hsess, hclock]
    by_cases hxy : x = y
    · subst hxy
      rw [update_self]
      exact hover j hx hreg
    · rw [update_of_ne hxy]
      exact h.overdue j x hx hreg

theorem Listed.overdue_of_candidate (h : s.Listed cfg) {now : ℤ} {x : Fin n} (hnow : now ≤ s.clock)
    (hx : x ∈ s.candidates cfg now) : s.Registered x ∧ s.Overdue cfg x := by
  obtain ⟨hreg, hoff, hdur⟩ : s.Registered x ∧ (s.sess x).Expired cfg now := by
    simpa [candidates] using hx
  have hpos := cfg.gracePeriod_pos
  unfold Sess.offlineDuration at hdur
  split at hdur
  · omega
  next hat =>
    rw [h.since x hoff hat] at hdur
    exact ⟨hreg, hoff, by omega⟩

theorem Listed.examine [DecidableEq C] (h : s.Listed cfg) (hf : s.Filed) {now : ℤ}
    (ha : s.Separate cfg (.examine i)) (hi : s.calls i = .sweeping now) :
    (s.setCall i (.destroying (s.candidates cfg now))).Listed cfg := by
  have hnow := h.now_le i now (by simp [hi, Call.now])
  have hcand : ∀ x ∈ s.candidates cfg now, s.Registered x ∧ s.Overdue cfg x :=
    fun x => h.overdue_of_candidate hnow
  -- a session on a list was on one before or is a candidate
  have key : ∀ j, ∀ x ∈ ((s.setCall i (.destroying (s.candidates cfg now))).calls j).sweeps,
      x ∈ (s.calls j).sweeps ∨ x ∈ s.candidates cfg now := by
    intro j x hx
    rcases of_update (P := fun k : Call n C => x ∈ k.sweeps) hx with ⟨-, hx⟩ | ⟨-, hx⟩
    · exact .inr hx
    · exact .inl hx
  have hmoved : ∀ j, ∀ x ∈ ((s.setCall i (.destroying (s.candidates cfg now))).calls j).reconnects,
      x ∈ (s.calls j).reconnects := by
    intro j x hx
    rcases of_update (P := fun k : Call n C => x ∈ k.reconnects) hx with ⟨-, hx⟩ | ⟨-, hx⟩
    · simp [Call.reconnects] at hx
    · exact hx
  refine ⟨?_, ?_, ?_, h.since, ?_⟩
  · intro j j' x hx hx'
    rcases key j' x hx' with hold | hnew
    · exact h.apart j j' x (hmoved j x hx) hold
    · exact ha.2 i rfl now (by simp [hi, Call.now]) x hnew j (hmoved j x hx)
  · intro j x hx
    refine started_update (by simp) ?_
    rcases key j x hx with hold | hnew
    · exact h.started j x hold
    · exact (hf.uid _ x (hcand x hnew).1).2
  · intro j now' hj
    rcases of_update (P := fun k : Call n C => now' ∈ k.now) hj with ⟨-, hj⟩ | ⟨-, hj⟩
    · simp [Call.now] at hj
    · exact h.now_le j now' hj
  · intro j x hx hreg
    rcases key j x hx with hold | hnew
    · exact h.overdue j x hold hreg
    · exact (hcand x hnew).2

theorem Listed.tick (h : s.Listed cfg) (d : ℕ) : Listed cfg { s with clock := s.clock + d } := by
  refine ⟨h.apart, h.started, ?_, h.since, ?_⟩
  · intro j now hj
    have := h.now_le j now hj
    show now ≤ s.clock + d
    omega
  · intro j x hx hreg
    obtain ⟨hoff, hdur⟩ := h.overdue j x hx hreg
    refine ⟨hoff, ?_⟩
    show cfg.gracePeriod ≤ s.clock + d - (s.sess x).since
    omega

/-- A session that is listed is offline already, so going offline does not start its time anew. -/
theorem Listed.goOffline (h : s.Listed cfg) (i y : Fin n) (c old : C) :
    ((s.setSess y ((s.sess y).goOffline s.clock)).setCall i (.dropping y c old)).Listed cfg := by
  refine h.of_sess rfl rfl rfl rfl (by simp) (by simp [Call.reconnects]) (by simp [Call.sweeps])
    rfl (by simp) ?_ ?_
  · unfold Sess.goOffline
    split
    · exact fun _ _ => rfl
    · exact h.since y
  · intro j hj hreg
    have hold := h.overdue j y hj hreg
    have hsame : (s.sess y).goOffline s.clock = s.sess y := by simp [Sess.goOffline, hold.1]
    rw [hsame]
    exact hold

variable {ID : C → UInt64}

theorem Listed.register (h : s.Listed cfg) {uid : String} {c : C} {codec : UInt8} {token : String}
    (hi : s.calls i = .notStarted) (hk : k ≠ .notStarted) (hrec : k.reconnects = none)
    (hsweeps : k.sweeps = []) (hnow : k.now = none) :
    ((s.register ID i uid c codec token).setCall i k).Listed cfg := by
  refine h.of_moved rfl hk (by simp [hrec]) (by simp [hsweeps]) (by simp [hnow]) rfl ?_ ?_
  · intro x
    by_cases hx : x = i
    · subst hx
      simp [Sess.newSession]
    · simpa [update_of_ne hx] using h.since x
  · intro j x hx hreg
    have hxi : x ≠ i := by
      rintro rfl
      exact h.started j x hx hi
    have hold : s.Registered x := by
      by_contra hgone
      exact (Gone.register hi hk ⟨hgone, h.started j x hx⟩).1 hreg
    simpa [Overdue, update_of_ne hxi] using h.overdue j x hx hold

variable [DecidableEq C]

/-- A listed session is not being reconnected, a released one not registered, and a new one on no
list. -/
theorem Listed.step (h : s.Listed cfg) (hf : s.Filed) (ha : s.Separate cfg a)
    (hstep : s.step ID cfg a = some s') : s'.Listed cfg := by
  cases happens_of_step hstep with
  | tick => exact h.tick _
  | create hi | replace hi => exact h.register hi (by simp) rfl rfl rfl
  | @rotate i y token newToken c codec hi ht =>
    refine h.of_sess rfl rfl rfl rfl (by simp) ?_ (by simp [Call.sweeps]) rfl rfl (h.since y)
      fun j => h.overdue j y
    intro x hx
    obtain rfl : y = x := Option.some.inj hx
    exact ha.1 i rfl y (by simp [hi, Call.found])
  | @bind i r hi =>
    refine h.of_sess rfl rfl rfl rfl (by simp) ?_ (by simp [Call.sweeps]) rfl rfl (h.since r.sess)
      fun j => h.overdue j r.sess
    intro x hx j
    exact h.apart i j x (by rw [hi]; exact hx)
  | @goOnline i r old hi =>
    have hfree : ∀ j, r.sess ∉ (s.calls j).sweeps :=
      fun j => h.apart i j r.sess (by simp [hi, Call.reconnects])
    refine h.of_sess rfl rfl rfl rfl (by simp) ?_ (by simp [Call.sweeps]) rfl rfl
      (fun hoff => by cases hoff) fun j hj => absurd hj (hfree j)
    intro x hx
    obtain rfl : r.sess = x := Option.some.inj hx
    exact hfree
  | @clearOffline i r old hi =>
    refine h.of_sess rfl rfl rfl rfl (by simp) ?_ (by simp [Call.sweeps]) rfl rfl
      (fun _ hne => absurd rfl hne) fun j => h.overdue j r.sess
    intro x hx j
    exact h.apart i j x (by rw [hi]; exact hx)
  | @unbind i y c old hi =>
    exact h.of_sess rfl rfl rfl rfl (by simp) (by simp [Call.reconnects]) (by simp [Call.sweeps])
      rfl rfl (h.since y) fun j => h.overdue j y
  | goOffline hi => exact h.goOffline ..
  | @release i y conn why hi =>
    refine h.of_sess rfl rfl rfl rfl (by simp) (by simp [Call.reconnects]) ?_ rfl rfl
      (fun hoff => by cases hoff) ?_
    · rw [hi]
      cases why <;> simp [Call.sweeps]
    · intro j hj hreg
      exact absurd hreg (hf.victim i y (by simp [hi, Call.victim])).1
  | examine hi => exact h.examine hf ha hi
  | @remove i x todo hi hx hreg =>
    refine h.of_same rfl (by simp) (by simp [Call.reconnects]) ?_ (by simp [Call.now]) rfl rfl ?_
    · rw [hi]
      exact List.cons_subset.mpr ⟨hx, List.erase_subset⟩
    · intro y hy
      exact (PartialMap.erase_eq_some.mp hy).2
  | @skip i x todo hi hx hreg =>
    refine h.of_same rfl (by simp) (by simp [Call.reconnects]) ?_ (by simp [Call.now]) rfl rfl
      fun _ hy => hy
    rw [hi]
    exact List.erase_subset
  | @reindex i r old hi =>
    refine h.of_same rfl (by simp) ?_ (by simp [Call.sweeps]) (by simp [Call.now]) rfl rfl
      fun _ hy => hy
    intro x hx j
    exact h.apart i j x (by rw [hi]; exact hx)
  | @takeConn i x why hi | @close i x conn why hi =>
    refine h.of_same rfl (by simp) (by simp [Call.reconnects]) ?_ (by simp [Call.now]) rfl rfl
      fun _ hy => hy
    rw [hi]
    cases why <;> simp [Call.sweeps]
  | @notify i x why hi =>
    refine h.of_same rfl ?_ ?_ ?_ ?_ rfl rfl fun _ hy => hy
    · cases why <;> simp [Cause.next]
    · cases why <;> simp [Cause.next, Call.reconnects]
    · rw [hi]
      cases why <;> simp [Cause.next, Call.sweeps]
    · cases why <;> simp [Cause.next, Call.now]
  | _ =>
    exact h.of_same rfl (by simp) (by simp [Call.reconnects]) (by simp [Call.sweeps])
      (by simp [Call.now]) rfl rfl fun _ hy => hy

theorem sweeps_of_step {j : Fin n} (h : (s.calls j).examined = true)
    (hstep : s.step ID cfg a = some s') :
    (s'.calls j).examined = true ∧ (s'.calls j).sweeps ⊆ (s.calls j).sweeps := by
  -- the call that moves is another one, or has made its list
  have moved : ∀ {i : Fin n} {k : Call n C},
      ((s.calls i).examined = true → k.examined = true ∧ k.sweeps ⊆ (s.calls i).sweeps) →
        (update s.calls i k j).examined = true ∧
          (update s.calls i k j).sweeps ⊆ (s.calls j).sweeps := by
    intro i k hk
    exact rel_update (fun k k' : Call n C => k.examined = true →
      k'.examined = true ∧ k'.sweeps ⊆ k.sweeps) (fun _ h => ⟨h, List.Subset.refl _⟩) hk j h
  cases happens_of_step hstep with
  | tick => exact ⟨h, List.Subset.refl _⟩
  | @remove i x todo hi hx hreg =>
    refine moved fun _ => ⟨rfl, ?_⟩
    rw [hi]
    exact List.cons_subset.mpr ⟨hx, List.erase_subset⟩
  | @skip i x todo hi hx hreg =>
    refine moved fun _ => ⟨rfl, ?_⟩
    rw [hi]
    exact List.erase_subset
  | @takeConn i x why hi | @release i x conn why hi | @close i x conn why hi
  | @notify i x why hi =>
    refine moved fun hex => ?_
    rw [hi] at hex ⊢
    cases why with
    | replaced => cases hex
    | swept todo => simp [Call.examined, Call.sweeps, Cause.next]
  | create hi | replace hi | unindex hi | find hi | miss hi | rotate hi | stale hi | bind hi
  | goOnline hi | clearOffline hi | reindex hi | closeOld hi | unbind hi | leave hi | goOffline hi
  | dropConn hi | closeConn hi | sweep hi | examine hi =>
    refine moved fun hex => ?_
    rw [hi] at hex
    cases hex

theorem rebind_origin {j : Fin n} {r : Rebind n C} (h : (s'.calls j).rebind = some r)
    (hstep : s.step ID cfg a = some s') :
    (s.calls j).rebind = some r ∨ j ∈ a.rotates ∧ r.sess ∈ (s.calls j).found := by
  -- the call that moves is another one, or had been accepted
  have moved : ∀ {i : Fin n} {k : Call n C}, (update s.calls i k j).rebind = some r →
      (k.rebind = some r → (s.calls i).rebind = some r) → (s.calls j).rebind = some r := by
    intro i k h hk
    exact rel_update (fun k k' : Call n C => k'.rebind = some r → k.rebind = some r)
      (fun _ => id) hk j h
  cases happens_of_step hstep with
  | tick => exact .inl h
  | @rotate i x token newToken c codec hi ht =>
    by_cases hj : j = i
    · subst hj
      obtain rfl : _ = r := by simpa [Call.rebind] using h
      exact .inr ⟨rfl, by simp [hi, Call.found]⟩
    · left
      simpa [update_of_ne hj] using h
  | bind hi | goOnline hi | clearOffline hi | reindex hi | closeOld hi =>
    exact .inl (moved h fun hk => by rw [hi]; exact hk)
  | @notify i x why hi =>
    refine .inl (moved h fun hk => ?_)
    cases why <;> cases hk
  | _ => exact .inl (moved h fun hk => by cases hk)

omit [DecidableEq C] in
theorem examined_of_mem_sweeps {k : Call n C} {x : Fin n} (h : x ∈ k.sweeps) :
    k.examined = true := by
  unfold Call.sweeps at h
  split at h <;> first | rfl | simp at h

variable {acts : List (ManagerAct n C)} {clock : ℤ}

theorem listed_of_run (hrun : run (step ID cfg) (newManager n C clock) acts = some s)
    (hsep : Along (step ID cfg) (Separate cfg) (newManager n C clock) acts) :
    s.Filed ∧ s.Listed cfg := by
  refine invariant_of_run (I := fun s => s.Filed ∧ s.Listed cfg) ?_
    ⟨filed_newManager clock, listed_newManager clock⟩ hsep hrun
  rintro s a s' ⟨hf, hl⟩ ha hstep
  exact ⟨hf.step hstep, hl.step hf ha hstep⟩

/-- **A sweep destroys only what has been offline for the grace period**, if sweeps and reconnects
keep out of each other's way; and what was listed before a reconnect returned is not listed
afterwards. -/
theorem sweep_removes_expired (hrun : run (step ID cfg) (newManager n C clock) acts = some s)
    (hsep : Along (step ID cfg) (Separate cfg) (newManager n C clock) acts) :
    (∀ i x s', s.step ID cfg (.remove i x) = some s' → s.Registered x →
      (s.sess x).st = .stateOffline ∧ cfg.gracePeriod ≤ s.clock - (s.sess x).since) ∧
    ∀ (i j x : Fin n) (acts' : List (ManagerAct n C)) (s' : Manager n C) (r : Rebind n C)
      (old : Option C), x ∈ (s.calls i).sweeps → (∀ r old, s.calls j ≠ .reconnected r old) →
      run (step ID cfg) s acts' = some s' →
      Along (step ID cfg) (Separate cfg) s acts' →
      s'.calls j = .reconnected r old → r.sess = x → x ∉ (s'.calls i).sweeps := by
  obtain ⟨hfiled, hlisted⟩ := listed_of_run hrun hsep
  constructor
  · intro i x s' hstep hreg
    cases happens_of_step hstep with
    | remove hi hx => exact hlisted.overdue i x (by rw [hi]; exact hx) hreg
    | skip _ _ hnot => exact absurd hreg hnot
  · intro i j x acts' s' r old hx hj hrun' hsep' hdone hr
    -- from now on the reconnect is not accepted or the session is off the list
    let Off : Manager n C → Prop := fun s =>
      (s.calls i).examined = true ∧
        ∀ r, (s.calls j).rebind = some r → r.sess = x → x ∉ (s.calls i).sweeps
    have hoff : Off s' := by
      refine invariant_of_run (I := Off) ?_ ⟨examined_of_mem_sweeps hx, ?_⟩ hsep' hrun'
      · rintro s a s' ⟨hex, hnot⟩ ha hstep
        obtain ⟨hex', hsub⟩ := sweeps_of_step hex hstep
        refine ⟨hex', fun q hq hqx => ?_⟩
        rcases rebind_origin hq hstep with hold | ⟨hrot, hfound⟩
        · exact fun hmem => hnot q hold hqx (hsub hmem)
        · exact fun hmem => ha.1 j hrot q.sess hfound i (hqx ▸ hsub hmem)
      · intro q hq hqx
        have hrec : (s.calls j).reconnects = some x := by
          rcases hk : s.calls j <;> rw [hk] at hq <;> cases hq
          case reconnected => exact absurd hk (hj _ _)
          all_goals rw [← hqx]; rfl
        exact hlisted.apart j i x hrec
    exact hoff.2 r (by rw [hdone]; rfl) hr

def awayActs : List (ManagerAct 4 UInt64) :=
  [.create 0 "alice" 1 0 "t0", .markOfflineConn 1 0 1, .goOffline 1, .dropConn 1, .closeConn 1]

/-- A sweep lists her session when the grace period is over, and a reconnect comes too late. -/
def overdueActs : List (ManagerAct 4 UInt64) := awayActs ++ [.tick 60, .sweep 2, .examine 2]

theorem sweep_removes_expired_overdue : ∃ s s',
    run (step id (Config.withDefaults 60)) (newManager 4 UInt64 100) overdueActs = some s ∧
      s.step id (Config.withDefaults 60) (.remove 2 0) = some s' ∧ s.Registered 0 ∧
      ¬ s'.Registered 0 ∧ (s.sess 0).st = .stateOffline ∧ 60 ≤ s.clock - (s.sess 0).since := by
  obtain ⟨s, hrun, s', hstep, hreg, hgone⟩ : ∃ s,
      run (step id (Config.withDefaults 60)) (newManager 4 UInt64 100) overdueActs =
          some s ∧ ∃ s', s.step id (Config.withDefaults 60) (.remove 2 0) = some s' ∧
        s.Registered 0 ∧ ¬ s'.Registered 0 := ⟨_, rfl, _, rfl, by decide, by decide⟩
  have hover := (sweep_removes_expired hrun (by decide)).1 2 0 s' hstep hreg
  exact ⟨s, s', hrun, hstep, hreg, hgone, hover⟩

/-- The reconnect that falls between the listing and the destruction. -/
def lateReconnectActs : List (ManagerAct 4 UInt64) :=
  [.reconnect 3 "t0" 2 0, .rotate 3 "t1", .bind 3, .goOnline 3, .clearOffline 3, .reindex 3,
    .closeOld 3]

/-- The reconnect has returned the listed session online; the sweep removes it and closes the new
connection. -/
theorem sweep_removes_online : ∃ s s',
    run (step id (Config.withDefaults 60)) (newManager 4 UInt64 100)
        (overdueActs ++ lateReconnectActs) = some s ∧
      s.calls 3 = .reconnected ⟨0, "t0", "t1", 2, 0⟩ none ∧ (s.sess 0).st = .stateOnline ∧
      (s.sess 0).conn = some 2 ∧ s.Registered 0 ∧
      run (step id (Config.withDefaults 60)) s
        [.remove 2 0, .takeConn 2, .release 2, .close 2] = some s' ∧
      ¬ s'.Registered 0 ∧ (s'.sess 0).st = .stateReleased ∧ s'.closed 2 = true := by
  obtain ⟨s, hrun, hdone, hst, hconn, hreg, hrun'⟩ := exists_of_run
    (step id (Config.withDefaults 60)) (newManager 4 UInt64 100)
    (overdueActs ++ lateReconnectActs)
    (fun s => s.calls 3 = .reconnected ⟨0, "t0", "t1", 2, 0⟩ none ∧
      (s.sess 0).st = .stateOnline ∧ (s.sess 0).conn = some 2 ∧ s.Registered 0 ∧
      (run (step id (Config.withDefaults 60)) s
        [.remove 2 0, .takeConn 2, .release 2, .close 2]).any (fun s' =>
          decide (¬ s'.Registered 0 ∧ (s'.sess 0).st = .stateReleased ∧ s'.closed 2 = true)) = true)
    (by decide +kernel)
  obtain ⟨s', hrun', hend⟩ := exists_of_run _ _ _ _ hrun'
  exact ⟨s, s', hrun, hdone, hst, hconn, hreg, hrun', hend⟩

end Manager

end RanGame.Session
