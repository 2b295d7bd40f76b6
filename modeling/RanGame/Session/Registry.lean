import RanGame.Session.ManagerSteps

/-!
# The session registered for a user

Only `Create` puts a session into the index by user, once for each session. A session leaves that
index when `Create` replaces it or `removeFromMaps` deletes it, and only then is it destroyed. So a
session that is being destroyed, or has been released, is never registered again.
-/

namespace RanGame.Session

open Machine PartialMap Function

/-- The session that a call is destroying. It has been taken out of the index by user. -/
def Call.victim {n : ℕ} {C : Type*} : Call n C → Option (Fin n)
  | .kicking x | .taking x _ | .releasing x _ _ | .closing x _ _ | .notifying x _ => some x
  | _ => none

/-- The session that a call of `Reconnect` has found. -/
def Call.subject {n : ℕ} {C : Type*} : Call n C → Option (Fin n)
  | .rotating x _ _ _ => some x
  | .binding r | .onlining r _ | .clearing r _ | .reindexing r _ | .closingOld r _
  | .reconnected r _ => some r.sess
  | _ => none

namespace Manager

variable {n : ℕ} {C : Type*}

/-- The sessions that the index by token holds, or that a `Reconnect` has found there, have been
made. -/
structure Known (s : Manager n C) : Prop where
  indexed : ∀ t x, s.byToken t = some x → s.calls x ≠ .notStarted
  subject : ∀ i, ∀ x ∈ (s.calls i).subject, s.calls x ≠ .notStarted

theorem known_newManager (clock : ℤ) : (newManager n C clock).Known where
  indexed := fun _ _ h => by simp [newManager] at h
  subject := fun _ _ h => by simp [newManager, Call.subject] at h

/-- The session has been made and is out of the index by user. -/
def Gone (s : Manager n C) (x : Fin n) : Prop := ¬ s.Registered x ∧ s.calls x ≠ .notStarted

/-- The index by user holds sessions of that user, neither being destroyed nor released. -/
structure Filed (s : Manager n C) : Prop where
  uid : ∀ u x, s.byUID u = some x → (s.sess x).uid = u ∧ s.calls x ≠ .notStarted
  victim : ∀ i, ∀ x ∈ (s.calls i).victim, s.Gone x
  released : ∀ x, (s.sess x).st = .stateReleased → s.Gone x

theorem filed_newManager (clock : ℤ) : (newManager n C clock).Filed where
  uid := fun _ _ h => by simp [newManager] at h
  victim := fun _ _ h => by simp [newManager, Call.victim] at h
  released := fun _ h => by simp [newManager] at h

variable {s s' : Manager n C}

variable {i x : Fin n} {k : Call n C} {a : ManagerAct n C}

theorem started_update {j : Fin n} (hk : k ≠ .notStarted) (h : s.calls j ≠ .notStarted) :
    update s.calls i k j ≠ .notStarted := by
  exact rel_update (fun k k' : Call n C => k ≠ .notStarted → k' ≠ .notStarted)
    (fun _ => id) (fun _ => hk) j h

theorem Known.of_same (h : s.Known) (hcalls : s'.calls = update s.calls i k)
    (hk : k ≠ .notStarted) (hindex : ∀ t x, s'.byToken t = some x → s.calls x ≠ .notStarted ∨ x = i)
    (hsubj : ∀ x ∈ k.subject, s.calls x ≠ .notStarted) : s'.Known := by
  constructor
  · intro t x ht
    rw [hcalls]
    rcases hindex t x ht with hx | rfl
    · exact started_update hk hx
    · rwa [update_self]
  · intro j x hx
    rw [hcalls] at hx ⊢
    refine started_update hk ?_
    rcases of_update (P := fun k => x ∈ Call.subject k) hx with ⟨-, hx⟩ | ⟨-, hx⟩
    · exact hsubj x hx
    · exact h.subject j x hx

theorem Gone.of_same (hx : s.Gone x) (hindex : s'.byUID = s.byUID)
    (huid : ∀ x, (s'.sess x).uid = (s.sess x).uid) (hcalls : s'.calls = update s.calls i k)
    (hk : k ≠ .notStarted) : s'.Gone x := by
  constructor
  · rw [Registered, hindex, huid]
    exact hx.1
  · rw [hcalls]
    exact started_update hk hx.2

theorem Filed.of_same (h : s.Filed) (hindex : s'.byUID = s.byUID)
    (huid : ∀ x, (s'.sess x).uid = (s.sess x).uid) (hcalls : s'.calls = update s.calls i k)
    (hk : k ≠ .notStarted) (hvictim : ∀ x ∈ k.victim, x ∈ (s.calls i).victim)
    (hst : ∀ x, (s'.sess x).st = .stateReleased → (s.sess x).st = .stateReleased ∨
      x ∈ (s.calls i).victim) :
    s'.Filed := by
  have hgone : ∀ x, s.Gone x → s'.Gone x := fun x hx => hx.of_same hindex huid hcalls hk
  refine ⟨?_, ?_, ?_⟩
  · intro u x hu
    rw [hindex] at hu
    rw [huid, hcalls]
    exact ⟨(h.uid u x hu).1, started_update hk (h.uid u x hu).2⟩
  · intro j x hx
    rw [hcalls] at hx
    rcases of_update (P := fun k : Call n C => x ∈ k.victim) hx with ⟨-, hx⟩ | ⟨-, hx⟩
    · exact hgone x (h.victim i x (hvictim x hx))
    · exact hgone x (h.victim j x hx)
  · intro x hx
    rcases hst x hx with hold | hold
    · exact hgone x (h.released x hold)
    · exact hgone x (h.victim i x hold)

variable {ID : C → UInt64} {cfg : Config}

theorem Gone.register {uid : String} {c : C} {codec : UInt8} {token : String}
    (hi : s.calls i = .notStarted) (hk : k ≠ .notStarted) (hx : s.Gone x) :
    ((s.register ID i uid c codec token).setCall i k).Gone x := by
  have hxi : x ≠ i := by
    rintro rfl
    exact hx.2 hi
  refine ⟨?_, started_update hk hx.2⟩
  intro hreg
  simp only [Registered, setCall_byUID, register_byUID, setCall_sess, register_sess,
    update_of_ne hxi] at hreg
  rcases insert_eq_some.mp hreg with ⟨-, heq⟩ | ⟨-, hreg⟩
  · exact hxi heq.symm
  · exact hx.1 hreg

theorem Filed.register (h : s.Filed) {uid : String} {c : C} {codec : UInt8} {token : String}
    (hi : s.calls i = .notStarted) (hk : k ≠ .notStarted)
    (hvictim : ∀ x ∈ k.victim, s.byUID uid = some x) :
    ((s.register ID i uid c codec token).setCall i k).Filed := by
  refine ⟨?_, ?_, ?_⟩
  · intro u x hu
    rcases insert_eq_some.mp hu with ⟨rfl, rfl⟩ | ⟨-, hold⟩
    · simpa [Sess.newSession] using hk
    · have hxi : x ≠ i := by
        rintro rfl
        exact (h.uid u x hold).2 hi
      simpa [update_of_ne hxi] using h.uid u x hold
  · intro j x hx
    rcases of_update (P := fun k : Call n C => x ∈ k.victim) hx with ⟨-, hx⟩ | ⟨-, hx⟩
    · obtain ⟨hux, hxs⟩ := h.uid uid x (hvictim x hx)
      have hxi : x ≠ i := by
        rintro rfl
        exact hxs hi
      refine ⟨?_, started_update hk hxs⟩
      simp only [Registered, setCall_byUID, register_byUID, setCall_sess, register_sess,
        update_of_ne hxi, hux, insert_self]
      exact fun heq => hxi (Option.some.inj heq).symm
    · exact (h.victim j x hx).register hi hk
  · intro x hx
    by_cases hxi : x = i
    · subst hxi
      simp [Sess.newSession] at hx
    · refine (h.released x ?_).register hi hk
      simpa [update_of_ne hxi] using hx

theorem Gone.remove [DecidableEq C] {y : Fin n} (hk : k ≠ .notStarted) (hx : s.Gone x) :
    ((s.removeFromMaps ID y).setCall i k).Gone x :=
  ⟨fun hreg => hx.1 (erase_eq_some.mp hreg).2, started_update hk hx.2⟩

theorem Filed.remove [DecidableEq C] (h : s.Filed) {y : Fin n} {todo : List (Fin n)}
    (hy : s.Registered y) :
    ((s.removeFromMaps ID y).setCall i (.taking y (.swept (todo.erase y)))).Filed := by
  refine ⟨?_, ?_, ?_⟩
  · intro u x hu
    have hold := h.uid u x (erase_eq_some.mp hu).2
    exact ⟨hold.1, started_update (by simp) hold.2⟩
  · intro j x hx
    rcases of_update (P := fun k : Call n C => x ∈ k.victim) hx with ⟨-, hx⟩ | ⟨-, hx⟩
    · obtain rfl : y = x := by simpa [Call.victim] using hx
      refine ⟨?_, started_update (by simp) (h.uid _ y hy).2⟩
      exact fun hreg => (erase_eq_some.mp hreg).1 rfl
    · exact (h.victim j x hx).remove (by simp)
  · intro x hx
    exact (h.released x hx).remove (by simp)

variable [DecidableEq C]

theorem Known.step (h : s.Known) (hstep : s.step ID cfg a = some s') : s'.Known := by
  have same : ∀ {i : Fin n} t x, s.byToken t = some x → s.calls x ≠ .notStarted ∨ x = i :=
    fun t x ht => .inl (h.indexed t x ht)
  cases happens_of_step hstep with
  | tick => exact ⟨h.indexed, h.subject⟩
  | create hi | replace hi =>
    refine h.of_same rfl (by simp) ?_ (by simp [Call.subject])
    intro t x ht
    rcases insert_eq_some.mp ht with ⟨-, rfl⟩ | ⟨-, ht⟩
    · exact .inr rfl
    · exact .inl (h.indexed t x ht)
  | @unindex _ x hi =>
    refine h.of_same rfl (by simp) (fun t y ht => .inl ?_) (by simp [Call.subject])
    exact h.indexed t y (byToken_of_unindex ID x ht)
  | @remove _ x _ hi =>
    refine h.of_same rfl (by simp) (fun t y ht => .inl ?_) (by simp [Call.subject])
    exact h.indexed t y (byToken_of_remove ID x ht)
  | @reindex i r old hi =>
    have hr := h.subject i r.sess (by rw [hi]; rfl)
    refine h.of_same rfl (by simp) (fun t y ht => .inl ?_) (by simpa [Call.subject] using hr)
    rcases insert_eq_some.mp ht with ⟨-, rfl⟩ | ⟨-, ht⟩
    · exact hr
    · exact h.indexed t y (erase_eq_some.mp ht).2
  | @find i x token c codec hi hx =>
    exact h.of_same rfl (by simp) same (by simpa [Call.subject] using h.indexed token x hx)
  | @rotate i _ _ _ _ _ hi | @bind i _ hi | @goOnline i _ _ hi | @clearOffline i _ _ hi
  | @closeOld i _ _ hi =>
    refine h.of_same rfl (by simp) same ?_
    intro x hx
    exact h.subject i x (by rw [hi]; exact hx)
  | @notify i x why hi =>
    refine h.of_same rfl ?_ same ?_
    · cases why <;> simp [Cause.next]
    · cases why <;> simp [Cause.next, Call.subject]
  | _ => exact h.of_same rfl (by simp) same (by simp [Call.subject])

theorem Filed.step (h : s.Filed) (hstep : s.step ID cfg a = some s') : s'.Filed := by
  cases happens_of_step hstep with
  | tick => exact { h with }
  | create hi => exact h.register hi (by simp) (by simp [Call.victim])
  | replace hi hold =>
    refine h.register hi (by simp) ?_
    intro x hx
    cases hx
    exact hold
  | remove hi hx hreg => exact h.remove hreg
  | @goOnline i r old hi =>
    refine h.of_same rfl (apply_update_of_eq Sess.uid (by rfl)) rfl (by simp)
      (by simp [Call.victim]) ?_
    intro x hx
    by_cases hxr : x = r.sess
    · subst hxr
      simp [Sess.goOnline] at hx
    · left
      simpa [update_of_ne hxr] using hx
  | @goOffline i y c old hi =>
    refine h.of_same rfl (apply_update_of_eq Sess.uid (by simp)) rfl (by simp)
      (by simp [Call.victim]) ?_
    intro x hx
    left
    by_cases hxy : x = y
    · subst hxy
      simp only [setCall_sess, setSess_sess, update_self, Sess.goOffline] at hx
      split at hx
      · cases hx
      · exact hx
    · simpa [update_of_ne hxy] using hx
  | @release i y conn why hi =>
    refine h.of_same rfl (apply_update_of_eq Sess.uid (by rfl)) rfl (by simp) ?_ ?_
    · simp [hi, Call.victim]
    · intro x hx
      by_cases hxy : x = y
      · right
        simp [hi, Call.victim, hxy]
      · left
        simpa [update_of_ne hxy] using hx
  | @notify i x why hi =>
    refine h.of_same rfl (fun _ => rfl) rfl ?_ ?_ fun _ hx => .inl hx
    · cases why <;> simp [Cause.next]
    · cases why <;> simp [Cause.next, Call.victim]
  | unindex hi | find hi | miss hi | stale hi | reindex hi | closeOld hi | leave hi | dropConn hi
  | closeConn hi | sweep hi | examine hi | skip hi | takeConn hi | close hi =>
    exact h.of_same rfl (fun _ => rfl) rfl (by simp) (by simp [hi, Call.victim]) fun _ hx => .inl hx
  | _ =>
    refine h.of_same rfl (apply_update_of_eq Sess.uid (by rfl)) rfl (by simp)
      (by simp [Call.victim]) fun x hx => .inl ?_
    rw [← hx]
    exact (apply_update_of_eq Sess.st (by rfl) x).symm

/-- **A session that is out of the index by user stays out.** -/
theorem Gone.step (hx : s.Gone x) (hstep : s.step ID cfg a = some s') : s'.Gone x := by
  cases happens_of_step hstep with
  | tick => exact hx
  | create hi | replace hi => exact hx.register hi (by simp)
  | remove hi => exact hx.remove (by simp)
  | goOffline hi => exact hx.of_same rfl (apply_update_of_eq Sess.uid (by simp)) rfl (by simp)
  | rotate hi | bind hi | goOnline hi | clearOffline hi | unbind hi | release hi =>
    exact hx.of_same rfl (apply_update_of_eq Sess.uid (by rfl)) rfl (by simp)
  | @notify i y why hi =>
    refine hx.of_same rfl (fun _ => rfl) rfl ?_
    cases why <;> simp [Cause.next]
  | _ => exact hx.of_same rfl (fun _ => rfl) rfl (by simp)

theorem uid_of_step (hx : s.calls x ≠ .notStarted) (hstep : s.step ID cfg a = some s') :
    (s'.sess x).uid = (s.sess x).uid := by
  cases happens_of_step hstep with
  | @create i _ _ _ _ hi | @replace i _ _ _ _ _ hi =>
    have hne : x ≠ i := by
      rintro rfl
      exact hx hi
    rw [setCall_sess, register_sess, update_of_ne hne]
  | goOffline hi => exact apply_update_of_eq Sess.uid (by simp) x
  | rotate hi | bind hi | goOnline hi | clearOffline hi | unbind hi | release hi =>
    exact apply_update_of_eq Sess.uid (by rfl) x
  | _ => rfl

theorem calls_of_step (hstep : s.step ID cfg a = some s')
    (hi : s.calls i = .created ∨ ∃ r old, s.calls i = .reconnected r old) :
    s'.calls i = s.calls i := by
  have other : ∀ {j : Fin n} {k : Call n C}, s.calls j ≠ .created →
      (∀ r old, s.calls j ≠ .reconnected r old) → update s.calls j k i = s.calls i := by
    intro j k hcre hrec
    refine update_of_ne ?_ ..
    rintro rfl
    rcases hi with hi | ⟨r, old, hi⟩
    · exact hcre hi
    · exact hrec r old hi
  cases happens_of_step hstep with
  | tick => rfl
  | create hj | replace hj | unindex hj | find hj | miss hj | rotate hj | stale hj | bind hj
  | goOnline hj | clearOffline hj | reindex hj | closeOld hj | unbind hj | leave hj | goOffline hj
  | dropConn hj | closeConn hj | sweep hj | examine hj | remove hj | skip hj | takeConn hj
  | release hj | close hj | notify hj => exact other (by simp [hj]) (by simp [hj])

end Manager

end RanGame.Session
