import RanGame.Session.Registry

/-!
# Connections told apart by their ID

`MarkOfflineConn` unbinds the connection it finds if the ID is that of the exiting pump, and
`Reconnect` closes the connection it has replaced unless the ID is that of the new one. Both do what
they are meant to do exactly if the connections that a session has been bound to have different IDs.
-/

namespace RanGame.Session

open Machine Function

section Call

variable {n : ℕ} {C : Type*}

/-- The session and the connection of the pump that exits, and the connection it has unbound. -/
def Call.exit : Call n C → Option (Fin n × C × C)
  | .offlining x c old | .dropping x c old | .leaving x c old => some (x, c, old)
  | _ => none

/-- The reconnect that has bound its connection, and the connection it has replaced. -/
def Call.replaced : Call n C → Option (Rebind n C × Option C)
  | .onlining r old | .clearing r old | .reindexing r old | .closingOld r old
  | .reconnected r old => some (r, old)
  | _ => none

/-- The connection that a reconnect is going to bind. -/
def Call.carries : Call n C → Option C
  | .rotating _ _ c _ => some c
  | .binding r => some r.conn
  | _ => none

/-- The connection that a login or a reconnect comes over. -/
def ManagerAct.brings : ManagerAct n C → Option C
  | .create _ _ c _ _ | .reconnect _ _ c _ => some c
  | _ => none

theorem Call.subject_of_replaced {k : Call n C} {p : Rebind n C × Option C} (h : p ∈ k.replaced) :
    p.1.sess ∈ k.subject := by
  cases k <;> cases h <;> rfl

end Call

namespace Manager

variable {n : ℕ} {C : Type*}

/-- The connection whose pump an action belongs to. -/
def exitOf (s : Manager n C) : ManagerAct n C → Option C
  | .markOfflineConn _ _ c => some c
  | .goOffline i | .dropConn i | .closeConn i => (s.calls i).exit.map fun e => e.2.1
  | _ => none

/-- A bound connection has the ID of no other of the session, and a pump exits on a session its
connection was bound to. -/
def Apart (ID : C → UInt64) (s : Manager n C) : ManagerAct n C → Prop
  | .bind i => ∀ r, s.calls i = .binding r →
      ∀ d ∈ (s.sess r.sess).past, ID d = ID r.conn → d = r.conn
  | .markOfflineConn _ x c => c ∈ (s.sess x).past
  | _ => True

/-- All connections that sessions have been bound to, or are going to be, have a property. -/
structure Carries (P : C → Prop) (s : Manager n C) : Prop where
  past : ∀ x, ∀ c ∈ (s.sess x).past, P c
  calls : ∀ i, ∀ c ∈ (s.calls i).carries, P c

/-- What is known of connections that are told apart. -/
structure Linked (ID : C → UInt64) (s : Manager n C) : Prop where
  conn : ∀ x c, (s.sess x).conn = some c → c ∈ (s.sess x).past
  replaced : ∀ i, ∀ p ∈ (s.calls i).replaced,
    p.1.conn ∈ (s.sess p.1.sess).past ∧ ∀ d ∈ p.2, d ∈ (s.sess p.1.sess).past
  apart : ∀ x, ∀ c ∈ (s.sess x).past, ∀ d ∈ (s.sess x).past, ID c = ID d → c = d
  /-- A pump has unbound its own connection. -/
  exit : ∀ i, ∀ e ∈ (s.calls i).exit, e.2.2 = e.2.1
  /-- A reconnect that has returned has closed the connection it has replaced. -/
  closed : ∀ i r d, s.calls i = .reconnected r (some d) → d ≠ r.conn → s.closed d = true

variable {ID : C → UInt64} {cfg : Config}

theorem carries_newManager (P : C → Prop) (clock : ℤ) : (newManager n C clock).Carries P where
  past := fun _ _ h => by simp [newManager] at h
  calls := fun _ _ h => by simp [newManager, Call.carries] at h

theorem linked_newManager (clock : ℤ) : (newManager n C clock).Linked ID where
  conn := fun _ _ h => by simp [newManager] at h
  replaced := fun _ _ h => by simp [newManager, Call.replaced] at h
  apart := fun _ _ h => by simp [newManager] at h
  exit := fun _ _ h => by simp [newManager, Call.exit] at h
  closed := fun _ _ _ h => by simp [newManager] at h

variable {s s' : Manager n C}

variable {i : Fin n} {k : Call n C} {a : ManagerAct n C}

theorem Carries.of_same {P : C → Prop} (h : s.Carries P) (hcalls : s'.calls = update s.calls i k)
    (hpast : ∀ x, (s'.sess x).past = (s.sess x).past) (hk : ∀ c ∈ k.carries, P c) :
    s'.Carries P := by
  refine ⟨fun x => by rw [hpast]; exact h.past x, ?_⟩
  rw [hcalls]
  exact (forall_update_iff s.calls fun _ (k : Call n C) => ∀ c ∈ k.carries, P c).mpr
    ⟨hk, fun j _ => h.calls j⟩

theorem Linked.of_same (h : s.Linked ID) (hcalls : s'.calls = update s.calls i k)
    (hpast : ∀ x, (s'.sess x).past = (s.sess x).past)
    (hconn : ∀ x c, (s'.sess x).conn = some c → (s.sess x).conn = some c)
    (hclosed : ∀ d, s.closed d = true → s'.closed d = true)
    (hrepl : ∀ p ∈ k.replaced, p ∈ (s.calls i).replaced) (hexit : ∀ e ∈ k.exit, e.2.2 = e.2.1)
    (hdone : ∀ r d, k = .reconnected r (some d) → d ≠ r.conn → s'.closed d = true) :
    s'.Linked ID := by
  refine ⟨?_, ?_, ?_, ?_, ?_⟩
  · intro x c hc
    rw [hpast]
    exact h.conn x c (hconn x c hc)
  · rw [hcalls]
    intro j p hp
    rw [hpast]
    refine h.replaced j p ?_
    exact rel_update (fun a b : Call n C => ∀ p ∈ b.replaced, p ∈ a.replaced)
      (fun _ _ hp => hp) hrepl j p hp
  · intro x c hc d hd
    rw [hpast] at hc hd
    exact h.apart x c hc d hd
  · rw [hcalls]
    intro j e he
    rcases of_update (P := fun k => e ∈ Call.exit k) he with ⟨-, he⟩ | ⟨-, he⟩
    · exact hexit e he
    · exact h.exit j e he
  · rw [hcalls]
    intro j r d hj hd
    rcases of_update (P := fun k => k = Call.reconnected r (some d)) hj with
      ⟨-, hj⟩ | ⟨-, hj⟩
    · exact hdone r d hj hd
    · exact hclosed d (h.closed j r d hj hd)

theorem Linked.register (h : s.Linked ID) (hknown : s.Known) {uid : String} {c : C} {codec : UInt8}
    {token : String} (hi : s.calls i = .notStarted) (hrepl : k.replaced = none)
    (hexit : k.exit = none) : ((s.register ID i uid c codec token).setCall i k).Linked ID := by
  refine ⟨?_, ?_, ?_, ?_, ?_⟩
  · refine (forall_update_iff s.sess fun _ (r : Sess C) =>
      ∀ c, r.conn = some c → c ∈ r.past).mpr ⟨?_, fun x _ => h.conn x⟩
    simp [Sess.newSession]
  · intro j p hp
    rcases of_update (P := fun k => p ∈ Call.replaced k) hp with ⟨-, hp⟩ | ⟨-, hp⟩
    · rw [hrepl] at hp
      cases hp
    · have hne : p.1.sess ≠ i := by
        intro heq
        exact hknown.subject j _ (Call.subject_of_replaced hp) (heq ▸ hi)
      rw [setCall_sess, register_sess, update_of_ne hne]
      exact h.replaced j p hp
  · refine (forall_update_iff s.sess fun _ (r : Sess C) =>
      ∀ c ∈ r.past, ∀ d ∈ r.past, ID c = ID d → c = d).mpr ⟨?_, fun x _ => h.apart x⟩
    simp [Sess.newSession]
  · intro j e he
    rcases of_update (P := fun k => e ∈ Call.exit k) he with ⟨-, he⟩ | ⟨-, he⟩
    · rw [hexit] at he
      cases he
    · exact h.exit j e he
  · intro j r d hj hd
    rcases of_update (P := fun k => k = Call.reconnected r (some d)) hj with
      ⟨-, rfl⟩ | ⟨-, hj⟩
    · cases hrepl
    · exact h.closed j r d hj hd

theorem Linked.bind (h : s.Linked ID) {r : Rebind n C}
    (hapart : ∀ d ∈ (s.sess r.sess).past, ID d = ID r.conn → d = r.conn) :
    ((s.setSess r.sess ((s.sess r.sess).bind r.conn)).setCall i
      (.onlining r (s.sess r.sess).conn)).Linked ID := by
  have hmono : ∀ x, ∀ c ∈ (s.sess x).past,
      c ∈ (update s.sess r.sess ((s.sess r.sess).bind r.conn) x).past := by
    intro x
    refine rel_update (fun a b : Sess C => ∀ c ∈ a.past, c ∈ b.past) (fun _ _ hc => hc) ?_ x
    exact fun c hc => List.mem_cons_of_mem _ hc
  refine ⟨?_, ?_, ?_, ?_, ?_⟩
  · refine (forall_update_iff s.sess fun _ (r : Sess C) =>
      ∀ c, r.conn = some c → c ∈ r.past).mpr ⟨?_, fun x _ => h.conn x⟩
    rintro c ⟨⟩
    exact List.mem_cons_self ..
  · intro j p hp
    rcases of_update (P := fun k => p ∈ Call.replaced k) hp with ⟨-, hp⟩ | ⟨-, hp⟩
    · cases hp
      refine ⟨by simp [Sess.bind], fun d hd => hmono _ d (h.conn _ d hd)⟩
    · obtain ⟨hc, hold⟩ := h.replaced j p hp
      exact ⟨hmono _ _ hc, fun d hd => hmono _ d (hold d hd)⟩
  · refine (forall_update_iff s.sess fun _ (r : Sess C) =>
      ∀ c ∈ r.past, ∀ d ∈ r.past, ID c = ID d → c = d).mpr ⟨?_, fun x _ => h.apart x⟩
    intro c hc d hd hID
    rcases List.mem_cons.mp hc with rfl | hc <;> rcases List.mem_cons.mp hd with rfl | hd
    · rfl
    · exact (hapart d hd hID.symm).symm
    · exact hapart c hc hID
    · exact h.apart _ c hc d hd hID
  · intro j e he
    rcases of_update (P := fun k => e ∈ Call.exit k) he with ⟨-, he⟩ | ⟨-, he⟩
    · cases he
    · exact h.exit j e he
  · intro j q d hj hd
    rcases of_update (P := fun k => k = Call.reconnected q (some d)) hj with
      ⟨-, hj⟩ | ⟨-, hj⟩
    · cases hj
    · exact h.closed j q d hj hd

variable [DecidableEq C]

theorem closeConn_closed_of_closed {conn : Option C} {d : C} (h : s.closed d = true) :
    (s.closeConn conn).closed d = true := by
  rcases conn with _ | c
  · exact h
  · rw [closeConn_closed]
    by_cases hd : d = c
    · subst hd
      simp
    · simpa [update_of_ne hd] using h

theorem Carries.step {P : C → Prop} (h : s.Carries P) (ha : ∀ c ∈ a.brings, P c)
    (hstep : s.step ID cfg a = some s') : s'.Carries P := by
  have sessions : ∀ {y : Fin n} {r : Sess C}, (∀ c ∈ r.past, P c) →
      ∀ x, ∀ c ∈ (update s.sess y r x).past, P c := fun hr =>
    (forall_update_iff s.sess fun _ (r : Sess C) => ∀ c ∈ r.past, P c).mpr ⟨hr, fun x _ => h.past x⟩
  have others : ∀ {i : Fin n} {k : Call n C}, k.carries = none →
      ∀ j, ∀ c ∈ (update s.calls i k j).carries, P c := fun hk =>
    (forall_update_iff s.calls fun _ (k : Call n C) => ∀ c ∈ k.carries, P c).mpr
      ⟨by simp [hk], fun j _ => h.calls j⟩
  cases happens_of_step hstep with
  | tick => exact ⟨h.past, h.calls⟩
  | @create i uid c codec token | @replace i old uid c codec token =>
    refine ⟨sessions ?_, others rfl⟩
    simpa [Sess.newSession] using ha c rfl
  | @bind i r hi =>
    refine ⟨sessions ?_, others rfl⟩
    intro c hc
    rcases List.mem_cons.mp hc with rfl | hc
    · exact h.calls i r.conn (by rw [hi]; rfl)
    · exact h.past r.sess c hc
  | @find i x token c codec hi hx =>
    exact h.of_same rfl (fun _ => rfl) (by simpa [Call.carries] using ha c rfl)
  | @rotate i x token newToken c codec hi =>
    refine h.of_same rfl (apply_update_of_eq Sess.past (by rfl)) ?_
    rintro d ⟨⟩
    exact h.calls i c (by rw [hi]; rfl)
  | @goOffline i x c old hi =>
    exact h.of_same rfl (apply_update_of_eq Sess.past (Sess.goOffline_past ..))
      (by simp [Call.carries])
  | goOnline hi | clearOffline hi | unbind hi | release hi =>
    exact h.of_same rfl (apply_update_of_eq Sess.past (by rfl)) (by simp [Call.carries])
  | @notify i x why hi =>
    refine h.of_same rfl (fun _ => rfl) ?_
    cases why <;> simp [Cause.next, Call.carries]
  | _ => exact h.of_same rfl (fun _ => rfl) (by simp [Call.carries])

theorem Linked.step (h : s.Linked ID) (hknown : s.Known) (ha : s.Apart ID a)
    (hstep : s.step ID cfg a = some s') : s'.Linked ID := by
  cases happens_of_step hstep with
  | tick => exact { h with }
  | create hi | replace hi => exact h.register hknown hi rfl rfl
  | @bind i r hi => exact h.bind (ha r hi)
  | @closeOld i r old hi =>
    obtain ⟨hnew, hold⟩ := h.replaced i (r, old) (by rw [hi]; rfl)
    refine h.of_same rfl (fun _ => rfl) (fun _ _ hc => hc)
      (fun d hd => closeConn_closed_of_closed hd) (by rw [hi]; exact fun _ hp => hp)
      (by simp [Call.exit]) ?_
    rintro q d ⟨⟩ hd
    have hID : ID d ≠ ID r.conn := fun hID => hd (h.apart _ d (hold d rfl) _ hnew hID)
    simp [Option.filter, hID]
  | @unbind i x c old hi hconn hID =>
    have hown : old = c := h.apart x old (h.conn x old hconn) c ha hID
    refine h.of_same rfl (apply_update_of_eq Sess.past (by rfl)) ?_ (fun _ hd => hd)
      (by simp [Call.replaced]) ?_ (by simp)
    · intro y d hd
      by_cases hy : y = x
      · subst hy
        simp [Sess.unbind] at hd
      · simpa [update_of_ne hy] using hd
    · rintro e ⟨⟩
      exact hown
  | @goOffline i x c old hi =>
    refine h.of_same rfl (apply_update_of_eq Sess.past ?_) ?_ (fun _ hd => hd)
      (by simp [Call.replaced]) ?_ (by simp)
    · exact Sess.goOffline_past ..
    · intro y d hd
      rwa [setCall_sess, setSess_sess, apply_update_of_eq Sess.conn (by simp)] at hd
    · rintro e ⟨⟩
      exact h.exit i _ (by rw [hi]; rfl)
  | @dropConn i x c old hi =>
    refine h.of_same rfl (fun _ => rfl) (fun _ _ hd => hd) (fun _ hd => hd)
      (by simp [Call.replaced]) ?_ (by simp)
    rintro e ⟨⟩
    exact h.exit i _ (by rw [hi]; rfl)
  | rotate hi | release hi =>
    refine h.of_same rfl (apply_update_of_eq Sess.past (by rfl)) ?_ (fun _ hd => hd)
      (by simp [Call.replaced]) (by simp [Call.exit]) (by simp)
    exact fun y d hd => (apply_update_of_eq Sess.conn (by rfl) y).symm.trans hd
  | goOnline hi | clearOffline hi =>
    refine h.of_same rfl (apply_update_of_eq Sess.past (by rfl)) ?_ (fun _ hd => hd)
      (by rw [hi]; exact fun _ hp => hp) (by simp [Call.exit]) (by simp)
    exact fun y d hd => (apply_update_of_eq Sess.conn (by rfl) y).symm.trans hd
  | reindex hi =>
    exact h.of_same rfl (fun _ => rfl) (fun _ _ hd => hd) (fun _ hd => hd)
      (by rw [hi]; exact fun _ hp => hp) (by simp [Call.exit]) (by simp)
  | closeConn hi | close hi =>
    refine h.of_same rfl (fun _ => rfl) (fun _ _ hd => hd) ?_ (by simp [Call.replaced])
      (by simp [Call.exit]) (by simp)
    intro d hd
    rw [setCall_closed]
    exact closeConn_closed_of_closed hd
  | @notify i x why hi =>
    refine h.of_same rfl (fun _ => rfl) (fun _ _ hd => hd) (fun _ hd => hd) ?_ ?_ ?_
    all_goals cases why <;> simp [Cause.next, Call.replaced, Call.exit]
  | _ =>
    exact h.of_same rfl (fun _ => rfl) (fun _ _ hd => hd) (fun _ hd => hd)
      (by simp [Call.replaced]) (by simp [Call.exit]) (by simp)

/-- **The exit of a pump leaves what other connections are bound to**, if a session marked offline
has none bound. -/
theorem Linked.exit_leaves (h : s.Linked ID) {c : C} (hexit : s.exitOf a = some c)
    (ha : s.Apart ID a)
    (hoff : ∀ i x c old, a = .goOffline i → s.calls i = .offlining x c old → (s.sess x).conn = none)
    (hstep : s.step ID cfg a = some s') {y : Fin n} {d : C} (hy : (s.sess y).conn = some d)
    (hd : d ≠ c) :
    (s'.sess y).conn = some d ∧ (s'.sess y).st = (s.sess y).st ∧ s'.closed d = s.closed d := by
  cases happens_of_step hstep with
  | @unbind i x c' old hi hconn hID =>
    obtain rfl : c' = c := Option.some.inj hexit
    have hyx : y ≠ x := by
      rintro rfl
      obtain rfl := Option.some.inj (hconn.symm.trans hy)
      exact hd (h.apart y old (h.conn y old hconn) c' ha hID)
    simp [update_of_ne hyx, hy]
  | leave hi => exact ⟨hy, rfl, rfl⟩
  | @goOffline i x c' old hi =>
    have hyx : y ≠ x := by
      rintro rfl
      rw [hoff i y c' old rfl hi] at hy
      cases hy
    simp [update_of_ne hyx, hy]
  | dropConn hi => exact ⟨hy, rfl, rfl⟩
  | @closeConn i x c' old hi =>
    have hown : old = c' := h.exit i (x, c', old) (by rw [hi]; rfl)
    obtain rfl : c' = c := by
      rw [exitOf, hi] at hexit
      exact Option.some.inj hexit
    refine ⟨hy, rfl, ?_⟩
    simp [hown, update_of_ne hd]
  | _ => cases hexit

end Manager

end RanGame.Session
