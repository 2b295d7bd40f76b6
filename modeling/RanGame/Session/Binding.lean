import RanGame.Session.ManagerSteps

/-!
# Online and bound

A session is meant to be online exactly while a connection is bound to it. `bind` and `unbindIfConn`
change the connection under one lock and the state under another, and the halves of one may fall
between the halves of the other: a session can stay offline with a live connection.
-/

namespace RanGame.Session

open Function Machine Call

/-- The session that a call has bound but not yet set online. -/
def Call.binds {n : ℕ} {C : Type*} : Call n C → Option (Fin n)
  | .onlining r _ => some r.sess
  | _ => none

/-- The session that a call has unbound but not yet set offline. -/
def Call.unbinds {n : ℕ} {C : Type*} : Call n C → Option (Fin n)
  | .offlining x _ _ => some x
  | _ => none

namespace Manager

variable {n : ℕ} {C : Type*}

/-- Some `bind` of the session is between its two sections. -/
def Binding (s : Manager n C) (x : Fin n) : Prop := ∃ i, (s.calls i).binds = some x

/-- Some `unbindIfConn` of the session is between its two sections. -/
def Unbinding (s : Manager n C) (x : Fin n) : Prop := ∃ i, (s.calls i).unbinds = some x

/-- The second half of a `bind` finds a connection, that of an `unbindIfConn` none. -/
def Undisturbed (s : Manager n C) (a : ManagerAct n C) : Prop :=
  (∀ i, a = .goOnline i → ∀ x ∈ (s.calls i).binds, (s.sess x).conn.isSome = true) ∧
    ∀ i, a = .goOffline i → ∀ x ∈ (s.calls i).unbinds, (s.sess x).conn = none

instance [DecidableEq C] (s : Manager n C) (a : ManagerAct n C) : Decidable (s.Undisturbed a) :=
  inferInstanceAs (Decidable (_ ∧ _))

/-- Where connection and state disagree, a half is pending that will set it right. -/
structure Balanced (s : Manager n C) (x : Fin n) : Prop where
  binding : (s.sess x).conn.isSome = true → (s.sess x).st = .stateOffline → s.Binding x
  unbinding : (s.sess x).conn = none → (s.sess x).st = .stateOnline → s.Unbinding x

variable {s s' : Manager n C} {x : Fin n}

variable {i : Fin n} {a : ManagerAct n C} {c : C}

theorem Balanced.of_same (h : s.Balanced x) {k : Call n C}
    (hconn : (s'.sess x).conn = (s.sess x).conn) (hst : (s'.sess x).st = (s.sess x).st)
    (hcalls : s'.calls = update s.calls i k) (hb : (s.calls i).binds ≠ some x)
    (hu : (s.calls i).unbinds ≠ some x) : s'.Balanced x := by
  refine ⟨fun hc ho => ?_, fun hc ho => ?_⟩
  · rw [hconn] at hc
    rw [hst] at ho
    rw [Binding, hcalls]
    exact exists_update_of_not (P := fun k => binds k = some x) hb (h.binding hc ho)
  · rw [hconn] at hc
    rw [hst] at ho
    rw [Unbinding, hcalls]
    exact exists_update_of_not (P := fun k => unbinds k = some x) hu (h.unbinding hc ho)

theorem Balanced.of_agree (h : (s.sess x).conn.isSome = true ∧ (s.sess x).st = .stateOnline ∨
      (s.sess x).conn = none ∧ (s.sess x).st ≠ .stateOnline ∨ (s.sess x).st = .stateReleased) :
    s.Balanced x := by
  rcases h with ⟨hc, ho⟩ | ⟨hc, ho⟩ | ho
  · exact ⟨fun _ h => by simp [ho] at h, fun h => by simp [h] at hc⟩
  · exact ⟨fun h => by simp [hc] at h, fun _ h => absurd h ho⟩
  · exact ⟨fun _ h => by simp [ho] at h, fun _ h => by simp [ho] at h⟩

theorem balanced_newManager (clock : ℤ) (x : Fin n) : (newManager n C clock).Balanced x :=
  .of_agree (.inr (.inl ⟨rfl, by simp [newManager]⟩))

variable [DecidableEq C] {ID : C → UInt64} {cfg : Config}

/-- Six sections touch connection or state of a session; in all other steps nothing changes. -/
theorem Balanced.step (h : ∀ x, s.Balanced x) (ha : s.Undisturbed a)
    (hstep : s.step ID cfg a = some s') : ∀ x, s'.Balanced x := by
  intro x
  -- a section of a call on session `y`, seen from another session
  have other : ∀ {i y : Fin n} {k : Call n C} {r : Sess C}, x ≠ y →
      (s.calls i).binds ≠ some x → (s.calls i).unbinds ≠ some x →
      ((s.setSess y r).setCall i k).Balanced x := by
    intro i y k r hxy hb hu
    refine (h x).of_same ?_ ?_ rfl hb hu <;> simp [update_of_ne hxy]
  cases happens_of_step hstep with
  | tick => exact ⟨(h x).binding, (h x).unbinding⟩
  | @create i uid c codec token hi | @replace i _ uid c codec token hi =>
    by_cases hx : x = i
    · subst hx
      exact .of_agree (.inl (by simp [Sess.newSession]))
    · refine (h x).of_same ?_ ?_ rfl (by simp [hi, binds]) (by simp [hi, unbinds]) <;>
        simp [update_of_ne hx]
  | rotate hi | clearOffline hi =>
    exact (h x).of_same (apply_update_of_eq Sess.conn (by rfl) x)
      (apply_update_of_eq Sess.st (by rfl) x) rfl (by simp [hi, binds])
      (by simp [hi, unbinds])
  | @bind i r hi =>
    by_cases hx : x = r.sess
    · subst hx
      exact ⟨fun _ _ => ⟨i, by simp [binds]⟩, fun hc => by simp [Sess.bind] at hc⟩
    · exact other hx (by simp [hi, binds]) (by simp [hi, unbinds])
  | @goOnline i r old hi =>
    by_cases hx : x = r.sess
    · subst hx
      have hbound := ha.1 i rfl r.sess (by simp [hi, binds])
      exact .of_agree (.inl (by simpa [Sess.goOnline] using hbound))
    · exact other hx (by simpa [hi, binds] using Ne.symm hx) (by simp [hi, unbinds])
  | @unbind i y c old hi =>
    by_cases hx : x = y
    · subst hx
      exact ⟨fun hc => by simp [Sess.unbind] at hc, fun _ _ => ⟨i, by simp [unbinds]⟩⟩
    · exact other hx (by simp [hi, binds]) (by simp [hi, unbinds])
  | @goOffline i y c old hi =>
    by_cases hx : x = y
    · subst hx
      have hnone := ha.2 i rfl x (by simp [hi, unbinds])
      refine .of_agree (.inr (.inl ⟨?_, ?_⟩))
      · simpa using hnone
      · simpa using (s.sess x).goOffline_st_ne s.clock
    · exact other hx (by simp [hi, binds]) (by simpa [hi, unbinds] using Ne.symm hx)
  | @release i y conn why hi =>
    by_cases hx : x = y
    · subst hx
      exact .of_agree (.inr (.inr (by simp [Sess.markReleased])))
    · exact other hx (by simp [hi, binds]) (by simp [hi, unbinds])
  | unindex hi | find hi | miss hi | stale hi | reindex hi | closeOld hi | leave hi | dropConn hi
  | closeConn hi | sweep hi | examine hi | remove hi | skip hi | takeConn hi | close hi
  | notify hi => exact (h x).of_same rfl rfl rfl (by simp [hi, binds]) (by simp [hi, unbinds])

/-! ## A reconnect and the exit of the old pump -/

/-- The sections of `Reconnect`, run by call `i`. -/
def reconnectActs (i : Fin n) (token newToken : String) (c : C) (codec : UInt8) :
    List (ManagerAct n C) :=
  [.reconnect i token c codec, .rotate i newToken, .bind i, .goOnline i, .clearOffline i,
    .reindex i, .closeOld i]

/-- The sections of `MarkOfflineConn`, run by call `j` for `x` and `d`. -/
def exitActs (j x : Fin n) (d : C) : List (ManagerAct n C) :=
  [.markOfflineConn j x d, .goOffline j, .dropConn j, .closeConn j]

/-- How far a `Reconnect` with connection `c` has come with session `x`, whose record is `r`. -/
def HasBound (c : C) (x : Fin n) (r : Sess C) : Call n C → Prop
  | .rotating _ _ c' _ => c' = c
  | .binding q => q.conn = c
  | .onlining q _ => q.conn = c ∧ (q.sess = x → r.conn = some c)
  | .clearing q _ | .reindexing q _ | .closingOld q _ | .reconnected q _ =>
    q.conn = c ∧ (q.sess = x → r.conn = some c ∧ r.st = .stateOnline)
  | _ => True

omit [DecidableEq C] in
theorem HasBound.of_conn_ne {r : Sess C} {k : Call n C} (h : HasBound c x r k)
    (hne : r.conn ≠ some c) (r' : Sess C) : HasBound c x r' k := by
  cases k with
  | onlining q _ => exact ⟨h.1, fun hq => absurd (h.2 hq) hne⟩
  | clearing q _ | reindexing q _ | closingOld q _ | reconnected q _ =>
    exact ⟨h.1, fun hq => absurd (h.2 hq).1 hne⟩
  | _ => exact h

/-- A section of the exit of the pump of `d` cannot take `c` out, nor set the session offline while
`c` is bound. -/
theorem HasBound.exit {j : Fin n} {d : C} (h : HasBound c x (s.sess x) (s.calls i)) (hij : i ≠ j)
    (hcd : ID c ≠ ID d) (ha : s.Undisturbed a) (hmem : a ∈ exitActs j x d)
    (hstep : s.step ID cfg a = some s') : HasBound c x (s'.sess x) (s'.calls i) := by
  simp only [exitActs, List.mem_cons, List.not_mem_nil, or_false] at hmem
  rcases hmem with rfl | rfl | rfl | rfl
  · cases happens_of_step hstep with
    | @unbind _ _ _ old hi hconn hID =>
      rw [setCall_calls, update_of_ne hij]
      refine h.of_conn_ne ?_ _
      rw [hconn]
      rintro ⟨rfl⟩
      exact hcd hID
    | leave hi =>
      rw [setCall_calls, update_of_ne hij]
      exact h
  · cases happens_of_step hstep with
    | @goOffline _ y _ _ hi =>
      rw [setCall_calls, update_of_ne hij]
      by_cases hx : x = y
      · subst hx
        have hnone := ha.2 j rfl x (by simp [hi, unbinds])
        exact h.of_conn_ne (by simp [hnone]) _
      · simpa [update_of_ne hx] using h
  · cases happens_of_step hstep with
    | dropConn hi => simpa [update_of_ne hij] using h
  · cases happens_of_step hstep with
    | closeConn hi => simpa [update_of_ne hij] using h

theorem HasBound.advance {token newToken : String} {codec : UInt8}
    (h : HasBound c x (s.sess x) (s.calls i)) (hmem : a ∈ reconnectActs i token newToken c codec)
    (hstep : s.step ID cfg a = some s') : HasBound c x (s'.sess x) (s'.calls i) := by
  simp only [reconnectActs, List.mem_cons, List.not_mem_nil, or_false] at hmem
  rcases hmem with rfl | rfl | rfl | rfl | rfl | rfl | rfl
  · cases happens_of_step hstep with
    | find | miss => simp [HasBound]
  · cases happens_of_step hstep with
    | rotate hi =>
      rw [hi] at h
      simpa [HasBound] using h
    | stale hi => simp [HasBound]
  · cases happens_of_step hstep with
    | @bind _ r hi =>
      rw [hi] at h
      obtain rfl : r.conn = c := h
      rw [setCall_calls, update_self]
      refine ⟨rfl, ?_⟩
      rintro rfl
      simp [Sess.bind]
  · cases happens_of_step hstep with
    | @goOnline _ r _ hi =>
      rw [hi] at h
      rw [setCall_calls, update_self]
      refine ⟨h.1, ?_⟩
      rintro rfl
      simpa [Sess.goOnline] using h.2 rfl
  · cases happens_of_step hstep with
    | @clearOffline _ r _ hi =>
      rw [hi] at h
      rw [setCall_calls, update_self]
      refine ⟨h.1, ?_⟩
      rintro rfl
      simpa [Sess.clearOffline] using h.2 rfl
  · cases happens_of_step hstep with
    | reindex hi =>
      rw [hi] at h
      simpa [HasBound] using h
  · cases happens_of_step hstep with
    | closeOld hi =>
      rw [hi] at h
      simpa [HasBound] using h

variable {acts : List (ManagerAct n C)} {clock : ℤ}

/-- **Online if and only if bound**, if every second half finds what its first half has left, and no
bind or unbind is between its halves. **And a reconnect wins against the old pump**, in every
interleaving. -/
theorem online_iff_bound (hID : Injective ID)
    (hrun : run (step ID cfg) (newManager n C clock) acts = some s)
    (hund : Along (step ID cfg) Undisturbed (newManager n C clock) acts) :
    (∀ x, ¬ s.Binding x → ¬ s.Unbinding x → (s.sess x).st ≠ .stateReleased →
      ((s.sess x).st = .stateOnline ↔ (s.sess x).conn.isSome = true)) ∧
    ∀ (i j x : Fin n) (token newToken : String) (c d : C) (codec : UInt8)
      (acts' : List (ManagerAct n C)) (s' : Manager n C) (r : Rebind n C) (old : Option C),
      c ≠ d → s.calls i = .notStarted →
      (∀ a ∈ acts', a ∈ reconnectActs i token newToken c codec ∨ a ∈ exitActs j x d) →
      run (step ID cfg) s acts' = some s' →
      Along (step ID cfg) Undisturbed s acts' →
      s'.calls i = .reconnected r old → r.sess = x → s'.calls j = .left →
      (s'.sess x).st = .stateOnline ∧ (s'.sess x).conn = some c := by
  constructor
  · intro x hb hu hrel
    have hbal : s.Balanced x := invariant_of_run
      (fun _ _ _ hs ha hstep => Balanced.step hs ha hstep) (balanced_newManager clock) hund hrun x
    constructor
    · intro hon
      rcases hconn : (s.sess x).conn with _ | c
      · exact absurd (hbal.unbinding hconn hon) hu
      · rfl
    · intro hconn
      rcases hst : (s.sess x).st
      · rfl
      · exact absurd (hbal.binding hconn hst) hb
      · exact absurd hst hrel
  · intro i j x token newToken c d codec acts' s' r old hcd hi hmem hrun' hund' hdone hx hleft
    have hij : i ≠ j := by
      rintro rfl
      rw [hdone] at hleft
      cases hleft
    have hinv : HasBound c x (s'.sess x) (s'.calls i) := by
      refine invariant_of_run (I := fun s => HasBound c x (s.sess x) (s.calls i)) ?_ ?_
        (hund'.and (along_of_forall_mem hmem)) hrun'
      · rintro s a s' h ⟨ha, hmem | hmem⟩ hstep
        · exact h.advance hmem hstep
        · exact h.exit hij (fun h => hcd (hID h)) ha hmem hstep
      · rw [hi]
        trivial
    rw [hdone] at hinv
    exact (hinv.2 hx).symm

/-- A configuration for runs on concrete inputs. -/
def sampleConfig : Config := Config.withDefaults 60

def loginActs : List (ManagerAct 3 UInt64) := [.create 0 "alice" 1 0 "t0"]

/-- The pump of connection `1` exits; a reconnect on `2` is found before the pump has dropped its
index entry. -/
def tidyReconnectActs : List (ManagerAct 3 UInt64) :=
  [.reconnect 1 "t0" 2 0, .markOfflineConn 2 0 1, .rotate 1 "t1", .goOffline 2, .bind 1,
    .dropConn 2, .goOnline 1, .closeConn 2, .clearOffline 1, .reindex 1, .closeOld 1]

theorem online_iff_bound_tidy : ∃ s s',
    run (step id sampleConfig) (newManager 3 UInt64 100) loginActs = some s ∧
      run (step id sampleConfig) s tidyReconnectActs = some s' ∧
      ((s.sess 0).st = .stateOnline ↔ (s.sess 0).conn.isSome = true) ∧
      (s'.sess 0).st = .stateOnline ∧ (s'.sess 0).conn = some 2 := by
  obtain ⟨s, hrun, hst, hb, hu, hi, s', hrun', hund', hdone, hleft⟩ : ∃ s,
      run (step id sampleConfig) (newManager 3 UInt64 100) loginActs = some s ∧
        (s.sess 0).st ≠ .stateReleased ∧ (∀ i, (s.calls i).binds ≠ some 0) ∧
        (∀ i, (s.calls i).unbinds ≠ some 0) ∧ s.calls 1 = .notStarted ∧ ∃ s',
        run (step id sampleConfig) s tidyReconnectActs = some s' ∧
          Along (step id sampleConfig) Undisturbed s tidyReconnectActs ∧
          s'.calls 1 = .reconnected ⟨0, "t0", "t1", 2, 0⟩ none ∧ s'.calls 2 = .left :=
    ⟨_, rfl, by decide, by decide, by decide, rfl, _, rfl, by decide, rfl, rfl⟩
  obtain ⟨hiff, hwins⟩ := online_iff_bound injective_id hrun (by decide)
  refine ⟨s, s', hrun, hrun', hiff 0 (fun ⟨i, h⟩ => hb i h) (fun ⟨i, h⟩ => hu i h) hst, ?_⟩
  exact hwins 1 2 0 "t0" "t1" 2 1 0 tidyReconnectActs s' _ _ (by decide) hi (by decide) hrun'
    hund' hdone rfl hleft

/-- The pump has taken connection `1` out when a reconnect binds `2` and goes online; then the pump
goes on. -/
def overtakenActs : List (ManagerAct 3 UInt64) :=
  [.markOfflineConn 2 0 1, .reconnect 1 "t0" 2 0, .rotate 1 "t1", .bind 1, .goOnline 1,
    .clearOffline 1, .reindex 1, .closeOld 1, .goOffline 2, .dropConn 2, .closeConn 2]

/-- Both calls have returned, and the session is offline with the new connection bound. -/
theorem offline_while_bound : ∃ s,
    run (step id sampleConfig) (newManager 3 UInt64 100) (loginActs ++ overtakenActs) = some s ∧
      s.calls 1 = .reconnected ⟨0, "t0", "t1", 2, 0⟩ none ∧ s.calls 2 = .left ∧
      (∀ a ∈ overtakenActs, a ∈ reconnectActs 1 "t0" "t1" 2 0 ∨ a ∈ exitActs 2 0 1) ∧
      ¬ s.Binding 0 ∧ ¬ s.Unbinding 0 ∧
      (s.sess 0).st = .stateOffline ∧ (s.sess 0).conn = some 2 ∧ s.closed 2 = false := by
  refine ⟨_, rfl, rfl, rfl, by decide, ?_, ?_, rfl, rfl, rfl⟩
  · rintro ⟨i, hi⟩
    revert i
    decide
  · rintro ⟨i, hi⟩
    revert i
    decide

end Manager

end RanGame.Session
