import RanGame.Session.Manager

/-!
# What a step of the manager can be

`Manager.step` branch by branch: for each, what the call was about to do and the state it leads to.
-/

namespace RanGame.Session

namespace Manager

open Option

variable {n : ℕ} {C : Type*} {ID : C → UInt64} {cfg : Config}

section

variable {s : Manager n C} {t : String} {y : Fin n} (ID) (x : Fin n)

theorem byToken_of_unindex (h : (s.unindex ID x).byToken t = some y) : s.byToken t = some y := by
  rw [unindex_byToken] at h
  split at h
  · exact h
  · exact (PartialMap.eraseIf_eq_some.mp h).1

theorem byToken_of_remove (h : (s.removeFromMaps ID x).byToken t = some y) :
    s.byToken t = some y := by
  rw [removeFromMaps_byToken] at h
  split at h
  · exact h
  · exact (PartialMap.erase_eq_some.mp h).2

end

variable [DecidableEq C]

inductive Happens (ID : C → UInt64) (cfg : Config) (s : Manager n C) :
    ManagerAct n C → Manager n C → Prop
  | tick {d} : Happens ID cfg s (.tick d) { s with clock := s.clock + d }
  | create {i uid c codec token} (hi : s.calls i = .notStarted) (hold : s.byUID uid = none) :
    Happens ID cfg s (.create i uid c codec token)
      ((s.register ID i uid c codec token).setCall i .created)
  /-- The user has a session already. -/
  | replace {i old uid c codec token}
    (hi : s.calls i = .notStarted) (hold : s.byUID uid = some old) :
    Happens ID cfg s (.create i uid c codec token)
      ((s.register ID i uid c codec token).setCall i (.kicking old))
  | unindex {i x} (hi : s.calls i = .kicking x) :
    Happens ID cfg s (.unindex i) ((s.unindex ID x).setCall i (.taking x .replaced))
  | find {i x token c codec} (hi : s.calls i = .notStarted) (hx : s.byToken token = some x) :
    Happens ID cfg s (.reconnect i token c codec) (s.setCall i (.rotating x token c codec))
  | miss {i token c codec} (hi : s.calls i = .notStarted) (hx : s.byToken token = none) :
    Happens ID cfg s (.reconnect i token c codec) (s.setCall i (.refused token))
  | rotate {i x token newToken c codec}
    (hi : s.calls i = .rotating x token c codec) (ht : (s.sess x).token = token) :
    Happens ID cfg s (.rotate i newToken)
      ((s.rotateToken x newToken).setCall i (.binding ⟨x, token, newToken, c, codec⟩))
  /-- The token in the index is not the session's any more. -/
  | stale {i x token newToken c codec}
    (hi : s.calls i = .rotating x token c codec) (ht : (s.sess x).token ≠ token) :
    Happens ID cfg s (.rotate i newToken)
      { s.setCall i (.refused token) with generated := newToken :: s.generated }
  | bind {i r} (hi : s.calls i = .binding r) :
    Happens ID cfg s (.bind i) ((s.setSess r.sess ((s.sess r.sess).bind r.conn)).setCall i
        (.onlining r (s.sess r.sess).conn))
  | goOnline {i r old} (hi : s.calls i = .onlining r old) : Happens ID cfg s (.goOnline i)
      ((s.setSess r.sess ((s.sess r.sess).goOnline r.codec)).setCall i (.clearing r old))
  | clearOffline {i r old} (hi : s.calls i = .clearing r old) : Happens ID cfg s (.clearOffline i)
      ((s.setSess r.sess (s.sess r.sess).clearOffline).setCall i (.reindexing r old))
  | reindex {i r old} (hi : s.calls i = .reindexing r old) :
    Happens ID cfg s (.reindex i) ((s.reindex ID r old).setCall i (.closingOld r old))
  | closeOld {i r old} (hi : s.calls i = .closingOld r old) : Happens ID cfg s (.closeOld i)
      ((s.closeConn (old.filter fun d => ID d ≠ ID r.conn)).setCall i (.reconnected r old))
  | unbind {i x c old} (hi : s.calls i = .notStarted)
    (hconn : (s.sess x).conn = some old) (hID : ID old = ID c) :
    Happens ID cfg s (.markOfflineConn i x c)
      ((s.setSess x (s.sess x).unbind).setCall i (.offlining x c old))
  /-- The session is bound to another connection, or to none. -/
  | leave {i x c} (hi : s.calls i = .notStarted)
    (hconn : ∀ old, (s.sess x).conn = some old → ID old ≠ ID c) :
    Happens ID cfg s (.markOfflineConn i x c) (s.setCall i .left)
  | goOffline {i x c old} (hi : s.calls i = .offlining x c old) : Happens ID cfg s (.goOffline i)
      ((s.setSess x ((s.sess x).goOffline s.clock)).setCall i (.dropping x c old))
  | dropConn {i x c old} (hi : s.calls i = .dropping x c old) : Happens ID cfg s (.dropConn i)
      { s.setCall i (.leaving x c old) with byConn := s.byConn.eraseIf (ID c) x }
  | closeConn {i x c old} (hi : s.calls i = .leaving x c old) :
    Happens ID cfg s (.closeConn i) ((s.closeConn (some old)).setCall i .left)
  | sweep {i} (hi : s.calls i = .notStarted) :
    Happens ID cfg s (.sweep i) (s.setCall i (.sweeping s.clock))
  | examine {i now} (hi : s.calls i = .sweeping now) :
    Happens ID cfg s (.examine i) (s.setCall i (.destroying (s.candidates cfg now)))
  | remove {i x todo} (hi : s.calls i = .destroying todo) (hx : x ∈ todo) (hreg : s.Registered x) :
    Happens ID cfg s (.remove i x)
      ((s.removeFromMaps ID x).setCall i (.taking x (.swept (todo.erase x))))
  | skip {i x todo} (hi : s.calls i = .destroying todo) (hx : x ∈ todo) (hreg : ¬ s.Registered x) :
    Happens ID cfg s (.remove i x) (s.setCall i (.destroying (todo.erase x)))
  | takeConn {i x why} (hi : s.calls i = .taking x why) :
    Happens ID cfg s (.takeConn i) (s.setCall i (.releasing x (s.sess x).conn why))
  | release {i x conn why} (hi : s.calls i = .releasing x conn why) : Happens ID cfg s (.release i)
      ((s.setSess x (s.sess x).markReleased).setCall i (.closing x conn why))
  | close {i x conn why} (hi : s.calls i = .closing x conn why) :
    Happens ID cfg s (.close i) ((s.closeConn conn).setCall i (.notifying x why))
  | notify {i x why} (hi : s.calls i = .notifying x why) :
    Happens ID cfg s (.notify i) (s.setCall i why.next)

variable {s s' : Manager n C}

theorem happens_of_unbindStep {i x : Fin n} {c : C} (h : s.unbindStep ID i x c = some s') :
    Happens ID cfg s (.markOfflineConn i x c) s' := by
  unfold unbindStep at h
  obtain ⟨hi, h⟩ := ite_none_right_eq_some.mp h
  split at h
  next old hconn =>
    split at h <;> cases h
    next hID => exact .unbind hi hconn hID
    next hID =>
      refine .leave hi fun d hd => ?_
      obtain rfl : old = d := some.inj (hconn.symm.trans hd)
      exact hID
  next hconn =>
    cases h
    refine .leave hi fun d hd => ?_
    rw [hconn] at hd
    cases hd

theorem happens_of_removeStep {i x : Fin n} (h : s.removeStep ID i x = some s') :
    Happens ID cfg s (.remove i x) s' := by
  unfold removeStep at h
  split at h
  next todo hi =>
    obtain ⟨hx, h⟩ := ite_none_right_eq_some.mp h
    split at h <;> cases h
    next hreg => exact .remove hi hx hreg
    next hreg => exact .skip hi hx hreg
  · cases h

/-- **A step is one of the branches.** -/
theorem happens_of_step {a : ManagerAct n C} (h : s.step ID cfg a = some s') :
    Happens ID cfg s a s' := by
  rcases a with _ | ⟨i, uid, c, codec, token⟩ | _ | ⟨i, token, c, codec⟩ | _ | _ | _ | _ | _ | _ |
    _ | _ | _ | _ | _ | _ | _ | _ | _ | _ | _
  case tick =>
    cases h
    exact .tick
  case create =>
    obtain ⟨hi, ⟨⟩⟩ := ite_none_right_eq_some.mp h
    rcases hold : s.byUID uid with _ | old
    · exact .create hi hold
    · exact .replace hi hold
  case reconnect =>
    obtain ⟨hi, ⟨⟩⟩ := ite_none_right_eq_some.mp h
    rcases hx : s.byToken token with _ | x
    · exact .miss hi hx
    · exact .find hi hx
  case rotate =>
    simp only [step] at h
    split at h
    next hi =>
      split at h <;> cases h
      next ht => exact .rotate hi ht
      next ht => exact .stale hi ht
    · cases h
  case markOfflineConn => exact happens_of_unbindStep h
  case remove => exact happens_of_removeStep h
  case sweep =>
    obtain ⟨hi, ⟨⟩⟩ := ite_none_right_eq_some.mp h
    exact .sweep hi
  -- the remaining actions have one branch each
  all_goals
    simp only [step] at h
    split at h <;> cases h
    next hi =>
      first
      | exact .unindex hi | exact .bind hi | exact .goOnline hi | exact .clearOffline hi
      | exact .reindex hi | exact .closeOld hi | exact .goOffline hi | exact .dropConn hi
      | exact .closeConn hi | exact .examine hi | exact .takeConn hi | exact .release hi
      | exact .close hi | exact .notify hi

end Manager

end RanGame.Session
